import Carom.Arena
import Carom.Proofs.Commutation
import Carom.Proofs.Script.Meaning
import Carom.Proofs.Steps
import Mathlib.Algebra.BigOperators.Group.Finset.Basic
import Mathlib.Algebra.GroupWithZero.Nat

/-!
# Executors that share a store

Of what an executor holds besides its store, only the source of random numbers can make a
difference to an operation. An operation that draws none gives the same on all executors with the
same store, leaves the same store and records as many fallbacks (`Executor.sameCourse_performOwn`).

So it does not matter which of the executors that share a store are asked for which operations of a
history (`Arena.interchangeable`): all that is seen is what a single executor shows, and what they
have recorded adds up to what it has recorded. A script that runs on its own counts as an executor
that is made for it.
-/

namespace Carom

/-! ## Operations that draw nothing -/

/-- An operation that runs nothing in which a random number is drawn. -/
def Operation.Steady : Operation → Prop
  | collide p _ _ => .draw ∉ p.uses
  | collideSquare s _ _ => ∀ p, s.activeProgram? = some p → .draw ∉ p.uses
  | execute p _ => .draw ∉ p.uses
  | run block _ => .draw ∉ Instruction.readsAll block
  | evaluate e _ => .draw ∉ e.reads
  | _ => True

/-- No statement of a script asks for a random number. -/
theorem Script.draw_not_mem_reads_of_spells {ws : List (List Char)} {i : Instruction}
    (h : Spells ws i) : .draw ∉ i.reads := by
  cases h <;> simp [Instruction.reads, Instruction.gather, Instruction.gatherAll, bounceFrom,
    setSpeed, changeSpeed, setDirection, Expression.reads, Expression.number]

/-- A script draws no random number. -/
theorem Script.draw_not_mem_uses_of_read {source : String} {p : Program}
    (h : Script.read source = .ok p) : .draw ∉ p.uses := by
  have statements := statements_of_read h
  have reads : .draw ∉ Instruction.readsAll p.instructions := by
    generalize p.instructions = block, statementLines source = ls at statements
    induction statements with
    | nil => exact List.not_mem_nil
    | cons statement _ ih =>
      have first := draw_not_mem_reads_of_spells (statement_eq_ok_iff.1 statement).2
      exact List.not_mem_append first ih
  simpa [Program.uses] using reads

/-! ## The same course on equal stores -/

/-- Two outcomes that cannot be told apart, and the engines that they began with recorded as many
    fallbacks of each kind on the way. -/
structure Outcome.SameCourse (g h : Engine) (o o' : Outcome) : Prop where
  result : o.result = o'.result
  store : o.executor.store = o'.executor.store
  gain : Engine.SameGain g h o.executor.engine o'.executor.engine

namespace Executor

variable {x y : Executor}

/-- What is answered from the store is the same for equal stores. -/
theorem sameCourse_answer (same : x.store = y.store) (a : Answer) :
    (x.answer a).SameCourse x.engine y.engine (y.answer a) :=
  ⟨rfl, same, .refl _ _⟩

theorem sameCourse_answer_with (s : Store) (a : Answer) :
    (({ x with store := s } : Executor).answer a).SameCourse x.engine y.engine
      (({ y with store := s } : Executor).answer a) :=
  ⟨rfl, rfl, .refl _ _⟩

/-- A program that draws nothing takes the same course in the same context. -/
theorem sameCourse_runAndCommit {g h : Engine} (same : x.store = y.store)
    (start : Engine.SameGain g h x.engine y.engine) {p : Program} (steady : .draw ∉ p.uses)
    (c : Context) :
    (ofRan (x.runAndCommit p.run c)).SameCourse g h (ofRan (y.runAndCommit p.run c)) := by
  -- Whichever variable is looked at, the runs agree on it, as they do on all that is read.
  have alike (name : String) : (x.runAndCommit p.run c).Alike (.var name :: p.uses)
      (Engine.SameGain g h) (y.runAndCommit p.run c) := by
    -- Another variable may be looked at as well, since it draws nothing.
    have steady' : .draw ∉ .var name :: p.uses := List.not_mem_cons_of_ne_of_not_mem nofun steady
    have reads : Instruction.readsAll p.instructions ⊆ .var name :: p.uses :=
      List.subset_cons_of_subset _ p.reads_subset_uses
    exact alike_runAndCommit
      (Instruction.lockstep_execAll (Engine.parallel_sameGain steady' g h) p.instructions reads)
      ⟨fun _ _ => rfl, fun _ _ => rfl⟩ start fun _ _ => by rw [same]
  refine ⟨?_, ?_, (alike "").engine⟩
  · simp only [ofRan, (alike "").result]
  · have values : (x.runAndCommit p.run c).executor.store.variables =
        (y.runAndCommit p.run c).executor.store.variables :=
      Std.ExtTreeMap.ext_getElem? fun {name} => (alike name).value name List.mem_cons_self
    rw [ofRan, ofRan, store_runAndCommit, store_runAndCommit y, values, same]

/-- So does a collision, whose context is taken from the store. -/
theorem sameCourse_collide (same : x.store = y.store) {p : Program} (steady : .draw ∉ p.uses)
    (b : Ball) (q : Position) :
    (ofRan (x.collide p b q)).SameCourse x.engine y.engine (ofRan (y.collide p b q)) := by
  have counted : (x.countHit b q).store = (y.countHit b q).store := by
    rw [countHit, countHit, same]
  have start : Engine.SameGain x.engine y.engine (x.countHit b q).engine (y.countHit b q).engine :=
    .refl x.engine y.engine
  rw [collide, collide, ← counted]
  exact sameCourse_runAndCommit counted start steady _

/-- And one with a square: its steps draw nothing in any case. -/
theorem sameCourse_collideSquare (same : x.store = y.store) {s : Square}
    (steady : ∀ p, s.activeProgram? = some p → .draw ∉ p.uses) (b : Ball) (q : Position) :
    (ofRan (x.collideSquare s b q)).SameCourse x.engine y.engine
      (ofRan (y.collideSquare s b q)) := by
  cases active : s.activeProgram? with
  | some p =>
    simp only [collideSquare, active]
    exact sameCourse_collide same (steady p active) b q
  | none =>
    rw [x.collideSquare_of_inactive active b q, y.collideSquare_of_inactive active b q, same]
    refine ⟨rfl, ?_, fun f => ?_⟩
    · simp only [ofRan, countHit, same]
    · simp only [ofRan, Engine.count_recordAll]
      have : (x.countHit b q).engine.tally = x.engine.tally := rfl
      have : (y.countHit b q).engine.tally = y.engine.tally := rfl
      simp only [*]
      omega

/-- So does a block that is run without being committed. -/
theorem sameCourse_run (same : x.store = y.store) {block : List Instruction}
    (steady : .draw ∉ Instruction.readsAll block) (c : Context) :
    (ofRan (x.run (Instruction.execAll block) c)).SameCourse x.engine y.engine
      (ofRan (y.run (Instruction.execAll block) c)) := by
  have lockstep := Instruction.lockstep_execAll
    (Engine.parallel_sameGain steady x.engine y.engine) block (List.Subset.refl _)
  have agree := lockstep ⟨c, x.engine⟩ ⟨c, y.engine⟩
    ⟨⟨fun _ _ => rfl, fun _ _ => rfl⟩, .refl _ _⟩
  simp only [run]
  generalize Instruction.execAll block ⟨c, x.engine⟩ = r,
    Instruction.execAll block ⟨c, y.engine⟩ = r' at agree ⊢
  cases agree with
  | ok actions alike => exact ⟨rfl, same, alike.engine⟩
  | error err alike => exact ⟨rfl, same, alike.engine⟩

/-- And an evaluation. -/
theorem sameCourse_evaluate (same : x.store = y.store) {e : Expression}
    (steady : .draw ∉ e.reads) (c : Context) :
    (x.evaluate e c).SameCourse x.engine y.engine (y.evaluate e c) := by
  have lockstep := e.lockstep_eval (Engine.parallel_sameGain steady x.engine y.engine)
    (c := c) (d := c) ⟨fun _ _ => rfl, fun _ _ => rfl⟩ (List.Subset.refl _)
  have agree := lockstep x.engine y.engine (.refl _ _)
  simp only [evaluate]
  generalize e.eval c x.engine = r, e.eval c y.engine = r' at agree ⊢
  cases agree with
  | ok v gain => exact ⟨rfl, same, gain⟩
  | error err gain => exact ⟨rfl, same, gain⟩

/-- Perform an operation on the engine of this executor, also if it is to run a script. -/
def performOwn (x : Executor) : Operation → Outcome
  | .collideScript source b q =>
    match Script.read source with
    | .ok p => ofRan (x.collide p b q)
    | .error e => ⟨.error (.unreadable e), none, x⟩
  | op => x.perform op

/-- An operation that draws nothing takes the same course on all executors with the same
    store. -/
theorem sameCourse_performOwn (same : x.store = y.store) {op : Operation} (steady : op.Steady) :
    (x.performOwn op).SameCourse x.engine y.engine (y.performOwn op) := by
  cases op with
  | collide p b q => exact sameCourse_collide same steady b q
  | collideSquare s b q => exact sameCourse_collideSquare same steady b q
  | collideScript source b q =>
    simp only [performOwn]
    cases read : Script.read source with
    | ok p => exact sameCourse_collide same (Script.draw_not_mem_uses_of_read read) b q
    | error e => exact ⟨rfl, same, .refl _ _⟩
  | execute p c => exact sameCourse_runAndCommit same (.refl _ _) steady c
  | run block c => exact sameCourse_run same steady c
  | evaluate e c => exact sameCourse_evaluate same steady c
  | snapshot | ballHits | squareHits =>
    simp only [performOwn, perform, same]
    exact sameCourse_answer same _
  | _ =>
    simp only [performOwn, perform, change, same]
    exact sameCourse_answer_with _ _

/-- Operations of one executor, one after the other: what each of them comes to. -/
def outcomes (x : Executor) : List Operation → List Outcome
  | [] => []
  | op :: ops => x.performOwn op :: (x.performOwn op).executor.outcomes ops

/-- The executor after some operations. -/
def performOwnAll (x : Executor) (ops : List Operation) : Executor :=
  ops.foldl (fun x op => (x.performOwn op).executor) x

end Executor

/-! ## Turns in an arena -/

/-- The executor that is made for a script to run on a store, as the collision leaves it. A script
    that cannot be read gets none, and no other operation does. -/
def Operation.made? (s : Store) : Operation → Option Executor
  | collideScript source b q =>
    match Script.read source with
    | .ok p => some (Executor.collide ⟨s, { source := fun _ => .zero }⟩ p b q).executor
    | .error _ => none
  | _ => none

/-- How many fallbacks of a kind the executor has recorded that was made for an operation. -/
def Operation.recorded (s : Store) (op : Operation) (f : Fallback) : Nat :=
  ((op.made? s).map fun x => x.engine.tally.count f).getD 0

namespace Executor

variable {x y : Executor}

/-- A script runs on the executor that is made for it, and on no other. -/
theorem perform_collideScript (x : Executor) {source : String} {p : Program}
    (read : Script.read source = .ok p) (b : Ball) (q : Position) :
    let ran := Executor.collide ⟨x.store, { source := fun _ => .zero }⟩ p b q
    let o := x.perform (.collideScript source b q)
    o.result = (ofRan ran).result ∧ o.executor.store = ran.executor.store ∧
      o.executor.engine.tally = x.engine.tally := by
  intro ran o
  have scripted : x.store.collideScript source b q =
      (ran.result.mapError .failed, ran.executor.store, ran.executor.engine.journal) := by
    simp only [Store.collideScript, read, ran]
  simp only [o, perform, Executor.collideScript, scripted, ofRan]
  refine ⟨?_, trivial, trivial⟩
  cases ran.result <;> rfl

/-- What an executor does not record of an operation is recorded on one that is made for it; all
    together it is what another executor with the same store records. -/
theorem perform_eq_performOwn (same : x.store = y.store) {op : Operation} (steady : op.Steady) :
    (x.perform op).result = (y.performOwn op).result ∧
      (x.perform op).executor.store = (y.performOwn op).executor.store ∧
      ∀ f, (x.perform op).executor.engine.tally.count f + op.recorded x.store f +
          y.engine.tally.count f =
        x.engine.tally.count f + (y.performOwn op).executor.engine.tally.count f := by
  cases op with
  | collideScript source b q =>
    -- A script runs on an executor that is made for it, so what it records is not in the tally.
    cases read : Script.read source with
    | ok p =>
      obtain ⟨result, store, tally⟩ := x.perform_collideScript read b q
      have course := sameCourse_collide (x := ⟨x.store, { source := fun _ => .zero }⟩) same
        (Script.draw_not_mem_uses_of_read read) b q
      simp only [performOwn, Operation.recorded, Operation.made?, read, result, store, tally]
      refine ⟨course.result, course.store, fun f => ?_⟩
      have gain := course.gain f
      simp only [ofRan, Tally.count_empty] at gain ⊢
      simp only [Option.map_some, Option.getD_some]
      omega
    | error e =>
      simp only [performOwn, perform, Executor.collideScript, Store.collideScript,
        Operation.recorded, Operation.made?, read]
      exact ⟨rfl, same, fun f => rfl⟩
  -- Everything else runs on the executor that is asked.
  | _ =>
    have course := sameCourse_performOwn same steady
    simp only [performOwn] at course ⊢
    refine ⟨course.result, course.store, fun f => ?_⟩
    have gain := course.gain f
    simp only [Operation.recorded, Operation.made?, Option.map_none, Option.getD_none]
    omega

end Executor

/-- What a turn comes to: its result, the fallbacks that were recorded on an executor made for it,
    and the arena after it. -/
structure Round where
  result : Except ScriptFailure Answer
  made : Fallback → Nat
  arena : Arena

namespace Arena

/-- A turn of an executor. -/
def round? (a : Arena) (turn : String × Operation) : Option Round := do
  let x ← a.executor? turn.1
  let (o, after) ← a.perform turn.1 turn.2
  pure ⟨o.result, turn.2.recorded x.store, after⟩

/-- Turns of executors, one after the other. -/
def rounds? (a : Arena) : List (String × Operation) → Option (List Round)
  | [] => some []
  | turn :: turns => do
    let first ← a.round? turn
    let rest ← first.arena.rounds? turns
    pure (first :: rest)

/-- The arena after some rounds. -/
def last (a : Arena) (rounds : List Round) : Arena := (rounds.map Round.arena).getLastD a

/-- How many fallbacks of a kind the executors of some names have recorded together. -/
def recorded (a : Arena) (names : Finset String) (f : Fallback) : Nat :=
  ∑ name ∈ names, ((a.seats[name]?).map fun seat => seat.engine.tally.count f).getD 0

/-- What is recorded depends on the seats of the names only. -/
theorem recorded_congr {a c : Arena} {names : Finset String}
    (same : ∀ name ∈ names, a.seats[name]? = c.seats[name]?) (f : Fallback) :
    a.recorded names f = c.recorded names f :=
  Finset.sum_congr rfl fun name mem => by rw [same name mem]

/-- What one executor has recorded, and the others. -/
theorem recorded_eq_add {a : Arena} {names : Finset String} {name : String} (mem : name ∈ names)
    {seat : Seat} (found : a.seats[name]? = some seat) (f : Fallback) :
    a.recorded names f = seat.engine.tally.count f + a.recorded (names.erase name) f := by
  rw [recorded, ← Finset.add_sum_erase names _ mem, found]
  rfl

theorem recorded_start (source : Nat → Binary64) (name : String) (s : Store) (f : Fallback) :
    (start source name s).recorded {name} f = 0 := by
  simp [recorded, start, Tally.count_empty]

/-- Executors of these names have the store of that number, which is this one. -/
structure Share (a : Arena) (names : Finset String) (k : Nat) (s : Store) : Prop where
  store : a.stores[k]? = some s
  seat : ∀ name ∈ names, ∃ g, a.seats[name]? = some ⟨k, g⟩

namespace Share

variable {a : Arena} {names : Finset String} {k : Nat} {s : Store} {name : String} {g : Engine}

theorem start (source : Nat → Binary64) (name : String) (s : Store) :
    (Arena.start source name s).Share {name} 0 s := by
  refine ⟨rfl, fun other mem => ⟨{ source }, ?_⟩⟩
  obtain rfl := Finset.mem_singleton.1 mem
  exact Std.ExtTreeMap.getElem?_insert_self

/-- An executor that is opened on the store of one that shares it shares it, too. -/
theorem openShared {other : String} (h : a.Share names k s) (mem : other ∈ names) (name : String) :
    (a.openShared name other).Share (insert name names) k s := by
  obtain ⟨g, seat⟩ := h.seat other mem
  rw [Arena.openShared, seat]
  refine ⟨h.store, fun third mem' => ?_⟩
  rw [Std.ExtTreeMap.getElem?_insert]
  split
  · exact ⟨_, rfl⟩
  · rename_i different
    exact h.seat third (Finset.mem_of_mem_insert_of_ne mem' fun same => different (by simp [same]))

/-- An executor that shares a store has that store. -/
theorem executor? (h : a.Share names k s) (seat : a.seats[name]? = some ⟨k, g⟩) :
    a.executor? name = some ⟨s, g⟩ := by
  simp [Arena.executor?, seat, h.store]

theorem leave_eq (seat : a.seats[name]? = some ⟨k, g⟩) (x : Executor) :
    a.leave name x = { a with
      stores := a.stores.setIfInBounds k x.store
      seats := a.seats.insert name ⟨k, { x.engine with journal := [] }⟩ } := by
  rw [Arena.leave, seat]

/-- An executor that is opened has recorded nothing. -/
theorem recorded_openShared {other : String} (h : a.Share names k s) (mem : other ∈ names)
    (new : name ∉ names) (f : Fallback) :
    (a.openShared name other).recorded (insert name names) f = a.recorded names f := by
  obtain ⟨g, seat⟩ := h.seat other mem
  have others : ∀ third ∈ names,
      (a.openShared name other).seats[third]? = a.seats[third]? := by
    intro third mem'
    have different : name ≠ third := fun same => new (same ▸ mem')
    simp [Arena.openShared, seat, Std.ExtTreeMap.getElem?_insert, different]
  have own : (a.openShared name other).seats[name]? = some ⟨k, { source := a.source }⟩ := by
    simp [Arena.openShared, seat]
  rw [recorded_eq_add (Finset.mem_insert_self name names) own, Finset.erase_insert new,
    recorded_congr others]
  simp [Tally.count_empty]

/-- What an executor does to the store is there for all that share it. -/
theorem leave (h : a.Share names k s) (seat : a.seats[name]? = some ⟨k, g⟩) (x : Executor) :
    (a.leave name x).Share names k x.store := by
  obtain ⟨inBounds, -⟩ := Array.getElem?_eq_some_iff.1 h.store
  rw [leave_eq seat]
  refine ⟨?_, fun other mem => ?_⟩
  · simp [inBounds]
  · rw [Std.ExtTreeMap.getElem?_insert]
    split
    · exact ⟨_, rfl⟩
    · exact h.seat other mem

/-- What is recorded all together changes by what one executor has recorded. -/
theorem recorded_leave (mem : name ∈ names) (seat : a.seats[name]? = some ⟨k, g⟩) (x : Executor)
    (f : Fallback) : (a.leave name x).recorded names f + g.tally.count f =
      a.recorded names f + x.engine.tally.count f := by
  have others : ∀ other ∈ names.erase name, (a.leave name x).seats[other]? = a.seats[other]? := by
    intro other mem'
    have different : name ≠ other := (Finset.ne_of_mem_erase mem').symm
    rw [leave_eq seat]
    simp [Std.ExtTreeMap.getElem?_insert, different]
  have own : (a.leave name x).seats[name]? = some ⟨k, { x.engine with journal := [] }⟩ := by
    rw [leave_eq seat]
    simp
  rw [recorded_eq_add mem own, recorded_eq_add mem seat, recorded_congr others]
  dsimp only
  omega

/-- A turn comes to what another executor with the same store makes of it. -/
theorem round (h : a.Share names k s) (mem : name ∈ names) {op : Operation} (steady : op.Steady)
    {y : Executor} (same : s = y.store) :
    ∃ r, a.round? (name, op) = some r ∧ r.result = (y.performOwn op).result ∧
      r.arena.Share names k (y.performOwn op).executor.store ∧
      ∀ f, r.arena.recorded names f + r.made f + y.engine.tally.count f =
        a.recorded names f + (y.performOwn op).executor.engine.tally.count f := by
  obtain ⟨g, seat⟩ := h.seat name mem
  obtain ⟨result, store, tally⟩ :=
    Executor.perform_eq_performOwn (x := ⟨s, g⟩) (y := y) same steady
  generalize performed : Executor.perform ⟨s, g⟩ op = o at result store tally
  refine ⟨⟨o.result, op.recorded s, a.leave name o.executor⟩, ?_, result, ?_, fun f => ?_⟩
  · -- A turn is an operation on the store that is shared and the engine of the seat.
    simp only [round?, Arena.perform, h.executor? seat, Option.bind_eq_bind, Option.bind_some,
      performed]
    rfl
  · rw [← store]
    exact h.leave seat o.executor
  · have left := recorded_leave mem seat o.executor f
    have gain := tally f
    dsimp only at gain ⊢
    omega

/-- Turns come to what another executor with the same store makes of all of them. -/
theorem rounds (h : a.Share names k s) {turns : List (String × Operation)}
    (present : ∀ turn ∈ turns, turn.1 ∈ names) (steady : ∀ turn ∈ turns, turn.2.Steady)
    {y : Executor} (same : s = y.store) :
    ∃ rounds, a.rounds? turns = some rounds ∧
      rounds.map (fun r => (r.result, r.arena.stores[k]?)) =
        (y.outcomes (turns.map Prod.snd)).map (fun o => (o.result, some o.executor.store)) ∧
      ∀ f, (a.last rounds).recorded names f + (rounds.map fun r => r.made f).sum +
          y.engine.tally.count f =
        a.recorded names f + (y.performOwnAll (turns.map Prod.snd)).engine.tally.count f := by
  induction turns generalizing a s y with
  | nil => exact ⟨[], rfl, rfl, fun f => rfl⟩
  | cons turn turns ih =>
    obtain ⟨here, later⟩ := List.forall_mem_cons.1 present
    obtain ⟨steadyHere, steadyLater⟩ := List.forall_mem_cons.1 steady
    obtain ⟨r, first, result, share, tally⟩ := h.round here steadyHere same
    obtain ⟨rs, rest, seen, tallies⟩ := ih share later steadyLater rfl
    refine ⟨r :: rs, ?_, ?_, fun f => ?_⟩
    · rw [rounds?, first, Option.bind_eq_bind, Option.bind_some, rest]
      rfl
    · rw [List.map_cons, List.map_cons, Executor.outcomes, List.map_cons, seen, result,
        share.store]
    · -- What is recorded adds up over the first turn and the others.
      have now := tally f
      have after := tallies f
      rw [last, List.map_cons, List.getLastD_cons, ← last, List.map_cons, List.sum_cons,
        List.map_cons, Executor.performOwnAll, List.foldl_cons, ← Executor.performOwnAll]
      omega

end Share

/-- It does not matter which of the executors that share a store are asked for which operations, as
    long as no random number is drawn: the results and the store after each operation are those of
    a single executor, and what they have recorded, with what was recorded on executors made for
    scripts, is what it has recorded, if that was so in the beginning. -/
theorem interchangeable {a : Arena} {names : Finset String} {k : Nat} {s : Store}
    (share : a.Share names k s) {turns : List (String × Operation)}
    (present : ∀ turn ∈ turns, turn.1 ∈ names) (steady : ∀ turn ∈ turns, turn.2.Steady)
    {g : Engine} (recorded : ∀ f, a.recorded names f = g.tally.count f) :
    ∃ rounds, a.rounds? turns = some rounds ∧
      rounds.map (fun r => (r.result, r.arena.stores[k]?)) =
        (Executor.outcomes ⟨s, g⟩ (turns.map Prod.snd)).map
          (fun o => (o.result, some o.executor.store)) ∧
      ∀ f, (a.last rounds).recorded names f + (rounds.map fun r => r.made f).sum =
        (Executor.performOwnAll ⟨s, g⟩ (turns.map Prod.snd)).engine.tally.count f := by
  obtain ⟨rounds, run, seen, tallies⟩ := share.rounds present steady (y := ⟨s, g⟩) rfl
  refine ⟨rounds, run, seen, fun f => ?_⟩
  have total := tallies f
  rw [recorded f] at total
  dsimp only at total
  omega

/-- Two executors take turns, one of which is asked for a script as well. Each of them reads a
    variable that has no value. -/
theorem interchangeable_two_executors :
    let b : Ball := ⟨"a", .zero, .zero, .zero, .right, "red", by decide⟩
    let p : Program := ⟨"p", [.setSpeed (.var "v")], none⟩
    let r : Program := ⟨"r", [.print (.var "v"), .setVariable "v" (.ball .hitCount)], none⟩
    let turns : List (String × Operation) :=
      [("main", .collide p b ⟨0, 0⟩),
        ("second", .collideSquare ⟨[r], some 0, [], by decide⟩ b ⟨0, 0⟩),
        ("second", .collideScript "def q\nif red hits wall 3 times\nset speed 2" b ⟨1, 0⟩),
        ("main", .resetHits ⟨0, 0⟩), ("second", .collide p b ⟨0, 0⟩)]
    let a := (Arena.start (fun _ => .zero) "main" {}).openShared "second" "main"
    let names : Finset String := {"second", "main"}
    let g : Engine := { source := fun _ => .zero }
    a.Share names 0 {} ∧ (∀ turn ∈ turns, turn.1 ∈ names) ∧ (∀ turn ∈ turns, turn.2.Steady) ∧
      (∀ f, a.recorded names f = g.tally.count f) ∧
      (Executor.performOwnAll ⟨{}, g⟩ (turns.map Prod.snd)).engine.tally.count
        .unresolvedVariable = 2 ∧
      ∃ rounds, a.rounds? turns = some rounds ∧
        rounds.map (fun r => (r.result, r.arena.stores[0]?)) =
          (Executor.outcomes ⟨{}, g⟩ (turns.map Prod.snd)).map
            (fun o => (o.result, some o.executor.store)) ∧
        ∀ f, (a.last rounds).recorded names f + (rounds.map fun r => r.made f).sum =
          (Executor.performOwnAll ⟨{}, g⟩ (turns.map Prod.snd)).engine.tally.count f := by
  intro b p r turns a names g
  have share : a.Share names 0 {} :=
    (Share.start _ "main" {}).openShared (Finset.mem_singleton_self "main") "second"
  have present : ∀ turn ∈ turns, turn.1 ∈ names := by
    simp [turns, names]
  have steady : ∀ turn ∈ turns, turn.2.Steady := by
    have noDraw : .draw ∉ p.uses ∧ .draw ∉ r.uses := by decide +kernel
    simp [turns, Operation.Steady, noDraw, Square.activeProgram?]
  have recorded : ∀ f, a.recorded names f = g.tally.count f := by
    intro f
    rw [(Share.start _ "main" {}).recorded_openShared (Finset.mem_singleton_self "main")
      (by decide) f, recorded_start, Tally.count_empty]
  exact ⟨share, present, steady, recorded, by decide +kernel,
    interchangeable share present steady recorded⟩

end Arena

end Carom
