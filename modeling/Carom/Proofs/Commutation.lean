import Carom.Proofs.Lockstep

/-!
# Collisions that commute

Collisions of two balls may change places if neither program assigns a variable that occurs in
the other (`Program.Spares`) and none of them draws random numbers (`Executor.collide_comm`).
Both collisions then give what they give in the other order, also if one of them fails, and the
store and the tally are the same afterwards.

The counts commute whatever the programs do (`Store.countHit_comm`). The variables do since a
collision neither notices the other one (`Executor.alike_after_spared`) nor changes what the
other one is about (`Executor.value?_collide`).
-/

namespace Carom

/-! ## Counts -/

/-- Two counts may be raised in either order. -/
theorem raise_comm {κ : Type} [Ord κ] [Std.TransOrd κ] [Std.LawfulEqOrd κ]
    (counts : Std.ExtTreeMap κ Int) (a b : κ) :
    let raise (m : Std.ExtTreeMap κ Int) (k : κ) := m.insert k (m.getD k 0 + 1)
    raise (raise counts a) b = raise (raise counts b) a := by
  intro raise
  by_cases h : a = b
  · rw [h]
  · refine Std.ExtTreeMap.ext_getElem? fun k => ?_
    simp only [raise, Std.ExtTreeMap.getElem?_insert, Std.ExtTreeMap.getD_insert]
    grind

namespace Store

variable (s : Store)

/-- Hits of balls are counted in any order. -/
theorem countBall_comm (b c : String) : (s.countBall b).countBall c = (s.countBall c).countBall b :=
  congrArg (fun counts => { s with ballCounts := counts }) (raise_comm s.ballCounts b c)

/-- So are hits of squares. -/
theorem countSquare_comm (p q : Position) :
    (s.countSquare p).countSquare q = (s.countSquare q).countSquare p :=
  congrArg (fun counts => { s with squareCounts := counts }) (raise_comm s.squareCounts p q)

/-- Hits are counted in any order. -/
theorem countHit_comm (b c : String) (p q : Position) :
    (s.countHit b p).countHit c q = (s.countHit c q).countHit b p :=
  calc (s.countHit b p).countHit c q
      = (((s.countBall b).countBall c).countSquare p).countSquare q := rfl
    _ = (((s.countBall c).countBall b).countSquare q).countSquare p := by
        rw [countBall_comm, countSquare_comm]
    _ = (s.countHit c q).countHit b p := rfl

end Store

/-- A tally is what it counts of each kind of fallback. -/
theorem Tally.ext_count {t u : Tally} (h : ∀ f, t.count f = u.count f) : t = u := by
  cases t
  cases u
  simp only [Tally.mk.injEq]
  exact ⟨h .unresolvedVariable, h .typeMismatch, h .divisionByZero, h .droppedInstruction,
    h .emptyRandomRange⟩

/-! ## Programs that leave each other alone -/

namespace Program

/-- The variables that a program may assign. -/
def targets (p : Program) : List String := Instruction.targetsAll p.instructions

/-- What occurs in a program: what it may read, and the variables that it may assign. -/
def uses (p : Program) : List Use :=
  Instruction.readsAll p.instructions ++ p.targets.map .var

/-- No variable that a program may assign occurs in another one. -/
def Spares (p r : Program) : Prop := ∀ name ∈ p.targets, .var name ∉ r.uses

theorem reads_subset_uses (p : Program) : Instruction.readsAll p.instructions ⊆ p.uses :=
  List.subset_append_left _ _

/-- A variable that is assigned occurs in the program, whether it is read or not. -/
theorem var_mem_uses {p : Program} {name : String} (h : name ∈ p.targets) :
    .var name ∈ p.uses :=
  List.mem_append_right _ (List.mem_map_of_mem h)

end Program

/-- Collisions of two balls with two programs that have nothing to do with each other. -/
structure Apart (p : Program) (b : Ball) (r : Program) (c : Ball) : Prop where
  different : b.identity ≠ c.identity
  steady : .draw ∉ p.uses
  steady' : .draw ∉ r.uses
  spares : p.Spares r
  spared : r.Spares p

/-- Neither of the two programs is distinguished. -/
theorem Apart.symm {p r : Program} {b c : Ball} (h : Apart p b r c) : Apart r c p b :=
  ⟨h.different.symm, h.steady', h.steady, h.spared, h.spares⟩

namespace Executor

variable {x : Executor} {p r : Program} {b c : Ball}

/-- A collision changes nothing in the store but the hits and the variables. -/
theorem store_collide (x : Executor) (p : Program) (b : Ball) (q : Position) :
    (x.collide p b q).executor.store = { x.store.countHit b.identity q with
      «variables» := (x.collide p b q).executor.store.variables } :=
  store_runAndCommit _ _ _

/-- A collision leaves a variable that is no target of its program as it was. -/
theorem value?_collide {name : String} (h : name ∉ p.targets) (q : Position) :
    (x.collide p b q).executor.store.variables[name]? = x.store.variables[name]? :=
  value?_runAndCommit (Instruction.writesOnly_targetsAll p.instructions) h rfl

/-- A collision takes the same course after one that it has nothing to do with. -/
theorem alike_after_apart (apart : Apart p b r c) (q q' : Position) :
    (x.collide p b q).Alike p.uses (Engine.SameGain x.engine (x.collide r c q').executor.engine)
      ((x.collide r c q').executor.collide p b q) := by
  refine alike_collide (Engine.parallel_sameGain apart.steady _ _) p.reads_subset_uses ?_ ?_
    (Engine.SameGain.refl _ _)
  · -- The other collision counts a hit of another ball.
    rw [store_collide]
    have counted := x.store.ballHits_countHit c.identity b.identity q'
    rw [if_neg apart.different.symm, Int.add_zero] at counted
    exact counted.symm
  · intro name used
    exact (value?_collide (fun target => apart.spared name target used) q').symm

/-- What a program may assign comes out the same in both orders. -/
theorem value?_collide_comm_of_target (apart : Apart p b r c) {name : String}
    (h : name ∈ p.targets) (q q' : Position) :
    ((x.collide p b q).executor.collide r c q').executor.store.variables[name]? =
      ((x.collide r c q').executor.collide p b q).executor.store.variables[name]? := by
  -- The other program does not write what this one has written, or is going to write.
  have other : name ∉ r.targets := fun target => apart.spares name h (Program.var_mem_uses target)
  calc ((x.collide p b q).executor.collide r c q').executor.store.variables[name]?
      = (x.collide p b q).executor.store.variables[name]? := value?_collide other q'
    _ = ((x.collide r c q').executor.collide p b q).executor.store.variables[name]? :=
        (alike_after_apart apart q q').value name (Program.var_mem_uses h)

/-- The variables come out the same in both orders. -/
theorem value?_collide_comm (apart : Apart p b r c) (name : String) (q q' : Position) :
    ((x.collide p b q).executor.collide r c q').executor.store.variables[name]? =
      ((x.collide r c q').executor.collide p b q).executor.store.variables[name]? := by
  by_cases left : name ∈ p.targets
  · exact value?_collide_comm_of_target apart left q q'
  by_cases right : name ∈ r.targets
  · exact (value?_collide_comm_of_target apart.symm right q' q).symm
  · -- A variable that neither program assigns is left alone by both.
    rw [value?_collide right, value?_collide left, value?_collide left, value?_collide right]

/-- Two collisions change nothing in the store but the hits and the variables. -/
theorem store_collide_collide (x : Executor) (p r : Program) (b c : Ball) (q q' : Position) :
    ((x.collide p b q).executor.collide r c q').executor.store =
      { (x.store.countHit b.identity q).countHit c.identity q' with
        «variables» := ((x.collide p b q).executor.collide r c q').executor.store.variables } := by
  rw [store_collide _ r, store_collide x p]
  rfl

/-- The store comes out the same in both orders. -/
theorem store_collide_comm (apart : Apart p b r c) (q q' : Position) :
    ((x.collide p b q).executor.collide r c q').executor.store =
      ((x.collide r c q').executor.collide p b q).executor.store := by
  -- The hits add up in any order, so it is only the variables that have to be compared.
  have values : ((x.collide p b q).executor.collide r c q').executor.store.variables =
      ((x.collide r c q').executor.collide p b q).executor.store.variables :=
    Std.ExtTreeMap.ext_getElem? fun {name} => value?_collide_comm apart name q q'
  rw [store_collide_collide, store_collide_collide x r p, values, Store.countHit_comm]

/-- The tally comes out the same in both orders. -/
theorem tally_collide_comm (apart : Apart p b r c) (q q' : Position) :
    ((x.collide p b q).executor.collide r c q').executor.engine.tally =
      ((x.collide r c q').executor.collide p b q).executor.engine.tally := by
  refine Tally.ext_count fun f => ?_
  -- Each program records as much behind the other one as it does in front of it.
  have left := (alike_after_apart (x := x) apart q q').engine f
  have right := (alike_after_apart (x := x) apart.symm q' q).engine f
  omega

/-- Collisions of two balls that have nothing to do with each other may change places: each
    gives the same or fails in the same way, and the store and the tally are the same in the
    end. -/
theorem collide_comm (x : Executor) {p r : Program} {b c : Ball} (apart : Apart p b r c)
    (q q' : Position) :
    let first := x.collide p b q
    let second := first.executor.collide r c q'
    let first' := x.collide r c q'
    let second' := first'.executor.collide p b q
    first.result = second'.result ∧ second.result = first'.result ∧
      second.executor.store = second'.executor.store ∧
      second.executor.engine.tally = second'.executor.engine.tally :=
  ⟨(alike_after_apart apart q q').result, (alike_after_apart apart.symm q' q).result.symm,
    store_collide_comm apart q q', tally_collide_comm apart q q'⟩

/-- Two balls on one square, one of which has hit too often for its count to be a number, so
    that its program fails in either order. -/
theorem collide_comm_one_fails :
    let ball (identity : String) : Ball := ⟨identity, .zero, .zero, .zero, .right, "red", by decide⟩
    let adding : Program :=
      ⟨"adding", [.setVariable "v" (.binary .add (.var "v") (.ball .hitCount))], none⟩
    let marking : Program :=
      ⟨"marking", [.setVariable "w" (.var "u"), .print (.ball .hitCount)], none⟩
    let x : Executor :=
      ⟨{ ballCounts := Std.ExtTreeMap.empty.insert "b" (2 ^ 1024) }, { source := fun _ => .zero }⟩
    let first := x.collide adding (ball "a") ⟨0, 0⟩
    let second := first.executor.collide marking (ball "b") ⟨0, 0⟩
    let first' := x.collide marking (ball "b") ⟨0, 0⟩
    let second' := first'.executor.collide adding (ball "a") ⟨0, 0⟩
    Apart adding (ball "a") marking (ball "b") ∧ second.result.isOk = false ∧
      first.result = second'.result ∧ second.result = first'.result ∧
      second.executor.store = second'.executor.store ∧
      second.executor.engine.tally = second'.executor.engine.tally := by
  intro ball adding marking x first second first' second'
  have apart : Apart adding (ball "a") marking (ball "b") :=
    ⟨by decide, by decide, by decide, by unfold Program.Spares; decide,
      by unfold Program.Spares; decide⟩
  have fails : second.result.isOk = false := by decide +kernel
  refine ⟨apart, fails, ?_⟩
  dsimp only [first, second, first', second']
  exact x.collide_comm apart ⟨0, 0⟩ ⟨0, 0⟩

end Executor

end Carom
