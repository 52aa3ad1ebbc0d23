import Carom.Proofs.Document.RoundTrip
import Carom.Proofs.Steps

/-!
# The programs of a square

A square goes through calls that add a program or make one the active one (`Square.call`). The
programs grow at their end only (`programs_prefix_callAll`), so the index that a program is given
when it is added is its index ever after, and an index that is in range stays in range.

* `activeProgram?_eq`: the active program is the one of the active index; there is always one.
* `exists_call_activate_iff`: which indices can be made active. A call that is refused changes
  nothing (`call_of_refused`).
* `keepsIndices`: so on every square that a document is read as, whatever calls it goes through,
  the program of an index is the one that was added under it, and it is run while that index is
  active.
-/

namespace Carom

open Document Checked

/-- No index, or the index of one of so many programs. -/
def InRange (index : Option Int) (count : Nat) : Prop := ∀ i ∈ index, 0 ≤ i ∧ i < count

namespace Square

/-- What can be asked of a square. -/
inductive Call where
  /-- Put a program behind the others. -/
  | add (program : Program)
  /-- Make the program of an index the active one, or none. -/
  | activate (index : Option Int)

/-- The answer to a call and the square after it. A program that is added is the last one, and
    its index the answer; a call that is refused leaves the square as it is. -/
def call (s : Square) : Call → Except OutOfRange (Option Nat) × Square
  | .add p => (.ok (some ((s.add p).programs.length - 1)), s.add p)
  | .activate index =>
    match s.activate index with
    | .ok t => (.ok none, t)
    | .error e => (.error e, s)

/-- The square after some calls. -/
def callAll (s : Square) (calls : List Call) : Square := calls.foldl (fun t c => (t.call c).2) s

variable (s : Square)

/-! ## The active program -/

/-- The active program is looked up under the active index. -/
theorem activeProgram?_eq : s.activeProgram? = s.active.bind fun i => s.programs[i]? := by
  unfold activeProgram?
  split
  · rename_i none
    rw [none, Option.bind_none]
  · rename_i i active
    have looked : (s.active.bind fun i => s.programs[i]?) = s.programs[i]? := by
      rw [active, Option.bind_some]
    rw [looked]
    exact (List.getElem?_eq_getElem (s.active_lt i active)).symm

/-- The active index of a square is in range, as the type of squares says. -/
theorem inRange_active : InRange (s.active.map Int.ofNat) s.programs.length := by
  intro z mem
  obtain ⟨i, active, rfl⟩ := Option.map_eq_some_iff.1 mem
  exact ⟨Int.natCast_nonneg i, Int.ofNat_lt.2 (s.active_lt i active)⟩

/-! ## One call -/

/-- An index is accepted iff it is none or in range. -/
theorem exists_activate_iff {index : Option Int} :
    (∃ t, s.activate index = .ok t) ↔ InRange index s.programs.length := by
  constructor
  · rintro ⟨t, activated⟩
    obtain ⟨programs, rfl, -⟩ := activate_eq_ok_iff.1 activated
    rw [← programs]
    exact t.inRange_active
  · intro inRange
    cases activated : s.activate index with
    | ok t => exact ⟨t, rfl⟩
    | error e =>
      obtain ⟨i, rfl, out, -⟩ := (s.activate_eq_error_iff index e).1 activated
      have := inRange i rfl
      omega

/-- An index can be made active iff it is in range. -/
theorem exists_call_activate_iff {index : Option Int} :
    (∃ a, (s.call (.activate index)).1 = .ok a) ↔ InRange index s.programs.length := by
  rw [← exists_activate_iff, call]
  cases s.activate index with
  | ok t => exact iff_of_true ⟨none, rfl⟩ ⟨t, rfl⟩
  | error e => exact iff_of_false nofun nofun

theorem call_of_activate {t : Square} {index : Option Int} (h : s.activate index = .ok t) :
    s.call (.activate index) = (.ok none, t) := by
  rw [call, h]

/-- A call that is refused changes nothing. -/
theorem call_of_refused {c : Call} {e : OutOfRange} (h : (s.call c).1 = .error e) :
    (s.call c).2 = s := by
  cases c with
  | add p => cases h
  | activate index =>
    rw [call] at h ⊢
    split at h
    · cases h
    · rfl

/-- A program that is added is the last one. -/
theorem call_add (p : Program) : s.call (.add p) = (.ok (some s.programs.length), s.add p) := by
  rw [call, add, List.length_append, List.length_singleton, Nat.add_sub_cancel]

/-- No call changes or moves a program that is there already. -/
theorem programs_prefix_call (c : Call) : s.programs <+: (s.call c).2.programs := by
  cases c with
  | add p => exact List.prefix_append s.programs [p]
  | activate index =>
    rw [call]
    split
    · rename_i t activated
      exact (activate_eq_ok_iff.1 activated).1.symm ▸ List.prefix_rfl
    · exact List.prefix_rfl

/-! ## Whole runs -/

/-- Calls may be made in two parts. -/
theorem callAll_append (calls more : List Call) :
    s.callAll (calls ++ more) = (s.callAll calls).callAll more :=
  List.foldl_append

/-- No call takes a program away or puts another one in its place. -/
theorem programs_prefix_callAll (calls : List Call) :
    s.programs <+: (s.callAll calls).programs := by
  induction calls generalizing s with
  | nil => exact List.prefix_rfl
  | cons c calls ih => exact (s.programs_prefix_call c).trans (ih (s.call c).2)

/-- A program that is added keeps its index. -/
theorem getElem?_callAll_add (p : Program) (calls : List Call) :
    ((s.add p).callAll calls).programs[s.programs.length]? = some p := by
  have there : s.programs.length < (s.add p).programs.length := by
    rw [add, List.length_append, List.length_singleton]
    exact Nat.lt_succ_self _
  rw [List.prefix_iff_getElem?.1 ((s.add p).programs_prefix_callAll calls) _ there]
  exact congrArg some (List.getElem_concat_length rfl there)

/-- What holds of a square after some calls. -/
structure KeepsIndices (s : Square) (calls : List Call) : Prop where
  /-- The active index has a program, and that is the active one. -/
  active : ∀ i, (s.callAll calls).active = some i →
    ∃ p, (s.callAll calls).programs[i]? = some p ∧ (s.callAll calls).activeProgram? = some p
  /-- Without an active index there is no active program. -/
  inactive : (s.callAll calls).active = none → (s.callAll calls).activeProgram? = none
  /-- An index is accepted iff it is in range. -/
  accepts_iff : ∀ index, (∃ a, ((s.callAll calls).call (.activate index)).1 = .ok a) ↔
    InRange index (s.callAll calls).programs.length
  /-- An index that is accepted is the active one then, and nothing else changes. -/
  accepted : ∀ index a, ((s.callAll calls).call (.activate index)).1 = .ok a →
    ((s.callAll calls).call (.activate index)).2.active.map Int.ofNat = index ∧
      ((s.callAll calls).call (.activate index)).2.programs = (s.callAll calls).programs ∧
      ((s.callAll calls).call (.activate index)).2.steps = (s.callAll calls).steps
  /-- A call that is refused changes nothing. -/
  refused : ∀ c e, ((s.callAll calls).call c).1 = .error e →
    ((s.callAll calls).call c).2 = s.callAll calls
  /-- The index that was the answer when a program was added is the one of that program still, and
      if it is active, a collision runs the program. -/
  added : ∀ before p later, calls = before ++ .add p :: later →
    ∃ i, ((s.callAll before).call (.add p)).1 = .ok (some i) ∧
      (s.callAll calls).programs[i]? = some p ∧
      ((s.callAll calls).active = some i → ∀ (x : Executor) (b : Ball) (q : Position),
        x.collideSquare (s.callAll calls) b q = x.collide p b q)

/-- The index that a document tells is in range if a square is read from it, and the square keeps
    its indices, whatever calls it goes through. -/
theorem keepsIndices {d : Document} {s : Square} (read : d.square = valid s) :
    (∃ index, (d.fieldOr "active_program" none fun v _ => v.nullable fun w _ => w.int) =
        valid index ∧ InRange index s.programs.length ∧ s.active.map Int.ofNat = index) ∧
      ∀ calls, s.KeepsIndices calls := by
  constructor
  · rw [Document.square, record] at read
    split at read
    · obtain ⟨⟨programs, index, steps⟩, all, checked⟩ := andThen_eq_valid_iff.1 read
      obtain ⟨-, both⟩ := both_eq_valid_iff.1 all
      obtain ⟨told, -⟩ := both_eq_valid_iff.1 both
      obtain ⟨rfl, rfl, rfl⟩ := checked_eq_valid_iff.1 checked
      exact ⟨_, told, s.inRange_active, rfl⟩
    · cases read
  · intro calls
    let t := s.callAll calls
    refine ⟨fun i active => ?_, fun none => ?_, fun _ => t.exists_call_activate_iff,
      fun index a done => ?_, fun c e => t.call_of_refused, fun before p later split => ?_⟩
    · have found := List.getElem?_eq_getElem (t.active_lt i active)
      exact ⟨_, found, by rw [activeProgram?_eq, active, Option.bind_some, found]⟩
    · rw [activeProgram?_eq, none, Option.bind_none]
    · obtain ⟨u, activated⟩ := t.exists_activate_iff.2 (t.exists_call_activate_iff.1 ⟨a, done⟩)
      obtain ⟨programs, active, steps⟩ := activate_eq_ok_iff.1 activated
      rw [t.call_of_activate activated]
      exact ⟨active, programs, steps⟩
    · -- Programs are added at the end and never taken out, so the index stays with its program.
      have found : t.programs[(s.callAll before).programs.length]? = some p := by
        simp only [t, split, callAll_append]
        exact (s.callAll before).getElem?_callAll_add p later
      refine ⟨_, congrArg Prod.fst ((s.callAll before).call_add p), found, fun active x b q => ?_⟩
      have runs : t.activeProgram? = some p := by
        rw [activeProgram?_eq, active, Option.bind_some, found]
      rw [Executor.collideSquare, runs]

/-- A square of one program is read from its document. The second program has the index one, also
    after an index that is refused, and it is run when that index is active at the end. -/
theorem keepsIndices_of_one_program :
    let idle : Program := ⟨"idle", [], none⟩
    let busy : Program := ⟨"busy", [.bounce], none⟩
    let s : Square := ⟨[idle], some 0, [⟨3, .stop, by decide⟩], by decide⟩
    let before : List Call := [.activate (some 1), .activate none]
    let later : List Call := [.activate (some (-1)), .add idle, .activate (some 1)]
    s.document.square = valid s ∧ (s.callAll before).active = none ∧
      (s.callAll (before ++ .add busy :: later)).active = some 1 ∧
      (s.callAll (before ++ .add busy :: later)).programs[1]? = some busy := by
  intro idle busy s before later
  have read : s.document.square = valid s :=
    (square_document s).2 fun z mem => by
      have : z = 0 ∨ z = 3 := by simpa [s, integers, Step.integers, Effect.integers] using mem
      exact isShort_of_natAbs_le (k := 1) (by omega) (by decide)
  obtain ⟨i, answer, found, -⟩ :=
    ((keepsIndices read).2 (before ++ .add busy :: later)).added before busy later rfl
  cases answer
  exact ⟨read, rfl, rfl, found⟩

end Square

end Carom
