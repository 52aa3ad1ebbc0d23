import Carom.Proofs.Frame
import Carom.Proofs.History

/-!
# Interleaved calls

A program can be run in two steps: the context of a ball on a square is taken now, and the
program runs in it later (`Call.take`, `Call.resume`). In between, other balls may collide.
What the program commits then are all variables of its context, also those that it does not
assign, with the values that they had when the context was taken.

* `Holds.step`: a value that is in the store, and in all contexts taken since it is there,
  stays in all of them through each call that does not assign the variable.
* `value?_run_of_takenSince`: so it stays in the store, as long as no run is resumed in a
  context that is older than the value.
* `not_kept_of_serial`: it need not stay there otherwise, even if calls for one ball or one
  square never interleave.
-/

namespace Carom

/-- A call to an executor. A run in two steps has a key that ties them together. -/
inductive Call where
  | collide (program : Program) (ball : Ball) (place : Position)
  | collideSquare (square : Square) (ball : Ball) (place : Position)
  /-- Take the context of a ball on a square. -/
  | take (key : String) (ball : Ball) (place : Position)
  /-- Run a program in the context that was taken and commit. -/
  | resume (key : String) (program : Program)
  | resetHits (place : Position)
  | resetHitCounts
  | resetVariables
  | resetAll

/-- An executor and the contexts that were taken and not used yet. -/
structure Desk where
  executor : Executor
  held : Std.ExtTreeMap String Context := ∅

/-- The scene in which a program begins to run on a collision. -/
def Executor.scene (x : Executor) (b : Ball) (q : Position) : Scene :=
  ⟨(x.countHit b q).store.context b q, (x.countHit b q).engine⟩

namespace Desk

/-- A desk on which nothing has happened yet. -/
def fresh : Desk := ⟨⟨{}, { source := fun _ => .zero }⟩, ∅⟩

/-- Let the executor perform an operation. -/
def perform (d : Desk) (op : Operation) : Desk := { d with executor := d.executor.after op }

/-- The desk after a call. A context is used once. -/
def step (d : Desk) : Call → Desk
  | .collide p b q => d.perform (.collide p b q)
  | .collideSquare s b q => d.perform (.collideSquare s b q)
  | .take key b q => { d with held := d.held.insert key (d.executor.store.context b q) }
  | .resume key p =>
    match d.held[key]? with
    | some c => ⟨d.executor.after (.execute p c), d.held.erase key⟩
    | none => d
  | .resetHits q => d.perform (.resetHits q)
  | .resetHitCounts => d.perform .resetHitCounts
  | .resetVariables => d.perform .resetVariables
  | .resetAll => d.perform .resetAll

/-- The desk after some calls. -/
def run (d : Desk) (calls : List Call) : Desk := calls.foldl step d

/-- The value of a variable in the store. -/
def value? (d : Desk) (name : String) : Option Value := d.executor.store.variables[name]?

/-- The variables that a call assigns. -/
def assigned (d : Desk) : Call → List String
  | .collide p b q => Instruction.assignedAll p.instructions (d.executor.scene b q)
  | .collideSquare s b q =>
    match s.activeProgram? with
    | some p => Instruction.assignedAll p.instructions (d.executor.scene b q)
    | none => []
  | .resume key p =>
    match d.held[key]? with
    | some c => Instruction.assignedAll p.instructions ⟨c, d.executor.engine⟩
    | none => []
  | _ => []

/-- The variables that some calls assign, one after the other. -/
def assignedAll (d : Desk) : List Call → List String
  | [] => []
  | c :: calls => d.assigned c ++ (d.step c).assignedAll calls

end Desk

namespace Call

/-- Whether a call is about that ball or about that square. What is resumed is about those
    whose context was taken. -/
def concerns (b : Ball) (q : Position) : Call → Bool
  | collide _ c p => c.identity == b.identity || p == q
  | collideSquare _ c p => c.identity == b.identity || p == q
  | take _ c p => c.identity == b.identity || p == q
  | resetHits p => p == q
  | _ => false

/-- Whether a call forgets the variables. -/
def forgetsVariables : Call → Bool
  | resetVariables => true
  | resetAll => true
  | _ => false

/-- The calls for one ball, and the calls for one square, do not interleave: none of them
    comes between the two steps of a run. -/
def Serial (calls : List Call) : Prop :=
  ∀ before key b q between p later,
    calls = before ++ take key b q :: (between ++ resume key p :: later) →
    (∀ p', resume key p' ∉ between) → (∀ b' q', take key b' q' ∉ between) →
    ∀ c ∈ between, c.concerns b q = false

/-- Every run that is resumed has its context from one of these calls. -/
def TakenSince (calls : List Call) : Prop :=
  ∀ before key p later, calls = before ++ resume key p :: later → ∃ b q, take key b q ∈ before

/-- The key under which a call takes a context. -/
def taken : Call → List String
  | take key _ _ => [key]
  | _ => []

end Call

/-! ## Values that stay -/

namespace Desk

/-- The value of a variable is the same in the store and in all contexts that were taken
    under some keys. -/
structure Holds (d : Desk) (name : String) (v : Value) (keys : List String) : Prop where
  store : d.value? name = some v
  contexts : ∀ key ∈ keys, ∀ c, d.held[key]? = some c → c.variables[name]? = some v

variable {d : Desk} {name : String} {v : Value} {keys : List String}

/-- An operation touches no context that was taken before. -/
theorem Holds.perform (h : d.Holds name v keys) {op : Operation}
    (kept : (d.executor.after op).store.variables[name]? = some v) :
    (d.perform op).Holds name v keys :=
  ⟨kept, h.contexts⟩

/-- A collision whose program does not assign the variable commits its value again. -/
theorem Holds.value?_collide (h : d.Holds name v keys) {p : Program} {b : Ball} {q : Position}
    (unassigned : name ∉ Instruction.assignedAll p.instructions (d.executor.scene b q)) :
    (d.executor.collide p b q).executor.store.variables[name]? = some v :=
  -- The context of a collision has the variables of the store.
  (Executor.value?_runAndCommit (Instruction.writesOnly_execAll p.instructions) unassigned
    rfl).trans h.store

/-- So does one with a square, whether a program is active or not. -/
theorem Holds.value?_collideSquare (h : d.Holds name v keys) {s : Square} {b : Ball}
    {q : Position} (unassigned : name ∉ d.assigned (.collideSquare s b q)) :
    (d.executor.collideSquare s b q).executor.store.variables[name]? = some v := by
  rw [Executor.collideSquare]
  rw [Desk.assigned] at unassigned
  split
  · rename_i p active
    rw [active] at unassigned
    exact h.value?_collide unassigned
  · -- Steps commit nothing.
    rw [Executor.store_run]
    exact h.store

/-- A context that is taken has the value as well. -/
theorem Holds.take (h : d.Holds name v keys) (key : String) (b : Ball) (q : Position) :
    (d.step (.take key b q)).Holds name v (key :: keys) := by
  refine ⟨h.store, fun other mem c found => ?_⟩
  simp only [Desk.step, Std.ExtTreeMap.getElem?_insert] at found
  split at found
  · cases found
    exact h.store
  · rename_i different
    rcases List.mem_cons.1 mem with rfl | old
    · simp at different
    · exact h.contexts other old c found

/-- A run in a context that has the value commits it. -/
theorem Holds.resume (h : d.Holds name v keys) {key : String} (known : key ∈ keys) {p : Program}
    (unassigned : name ∉ d.assigned (.resume key p)) :
    (d.step (.resume key p)).Holds name v keys := by
  simp only [Desk.step, Desk.assigned] at unassigned ⊢
  cases found : d.held[key]? with
  | none => exact h
  | some c =>
    rw [found] at unassigned
    refine ⟨?_, fun other mem c' found' => ?_⟩
    · -- The run commits what its context has, and that is what the store has.
      have same := (h.contexts key known c found).trans h.store.symm
      exact (Executor.value?_runAndCommit (Instruction.writesOnly_execAll p.instructions)
        unassigned same).trans h.store
    · simp only [Std.ExtTreeMap.getElem?_erase] at found'
      split at found'
      · cases found'
      · exact h.contexts other mem c' found'

/-- One call, if it does not assign the variable, nor forget it, nor resume a run in another
    context. -/
theorem Holds.step (h : d.Holds name v keys) {c : Call} (unassigned : name ∉ d.assigned c)
    (kept : c.forgetsVariables = false) (known : ∀ key p, c = .resume key p → key ∈ keys) :
    (d.step c).Holds name v (c.taken ++ keys) := by
  cases c with
  | collide p b q => exact h.perform (h.value?_collide unassigned)
  | collideSquare s b q => exact h.perform (h.value?_collideSquare unassigned)
  | take key b q => exact h.take key b q
  | resume key p => exact h.resume (known key p rfl) unassigned
  | resetHits q => exact h.perform h.store
  | resetHitCounts => exact h.perform h.store
  | resetVariables => cases kept
  | resetAll => cases kept

/-- The calls of a history one after the other: a run is resumed in a context that is known
    to have the value, or in one that the history has taken before. -/
theorem Holds.run {calls : List Call} (h : d.Holds name v keys)
    (unassigned : name ∉ d.assignedAll calls)
    (kept : ∀ c ∈ calls, c.forgetsVariables = false)
    (known : ∀ before key p later, calls = before ++ .resume key p :: later →
      key ∈ keys ∨ ∃ b q, .take key b q ∈ before) : (d.run calls).value? name = some v := by
  induction calls generalizing d keys with
  | nil => exact h.store
  | cons c calls ih =>
    -- The keys under which contexts are taken join those that are known.
    obtain ⟨notNow, notLater⟩ := not_or.1 fun either => unassigned (List.mem_append.2 either)
    have knownNow : ∀ key p, c = .resume key p → key ∈ keys := by
      rintro key p rfl
      rcases known [] key p calls rfl with mem | ⟨_, _, mem⟩
      · exact mem
      · cases mem
    refine ih (h.step notNow (kept c List.mem_cons_self) knownNow) notLater
      (fun c' mem => kept c' (List.mem_cons_of_mem _ mem)) ?_
    rintro before key p later rfl
    rcases known (c :: before) key p later rfl with mem | ⟨b, q, mem⟩
    · exact .inl (List.mem_append_right _ mem)
    · rcases List.mem_cons.1 mem with rfl | mem
      · exact .inl (List.mem_append_left _ (List.mem_singleton_self key))
      · exact .inr ⟨b, q, mem⟩

/-- A value stays in the store until the variable is assigned or forgotten, if no run is
    resumed in a context that was taken before the value was there. -/
theorem value?_run_of_takenSince (d : Desk) (calls : List Call) (name : String) (v : Value)
    (stored : d.value? name = some v) (unassigned : name ∉ d.assignedAll calls)
    (kept : ∀ c ∈ calls, c.forgetsVariables = false) (since : Call.TakenSince calls) :
    (d.run calls).value? name = some v := by
  have start : d.Holds name v [] := ⟨stored, nofun⟩
  exact start.run unassigned kept fun before key p later eq =>
    .inr (since before key p later eq)

end Desk

/-- A ball at rest. -/
def resting (identity : String) : Ball :=
  ⟨identity, .zero, .zero, .zero, .right, "red", by decide⟩

/-- A program that sets one variable to *true*. -/
def setting (name : String) : Program :=
  ⟨"set", [.setVariable name (.literal (.boolean true))], none⟩

/-- After a collision of one ball, another ball runs a program in two steps. -/
theorem Desk.value?_run_of_takenSince_two_balls :
    let d := Desk.fresh.run [.collide (setting "v") (resting "b") ⟨1, 0⟩]
    let calls := [.take "c" (resting "a") ⟨0, 0⟩, .resume "c" (setting "w")]
    d.value? "v" = some (.boolean true) ∧ "v" ∉ d.assignedAll calls ∧
      (∀ c ∈ calls, c.forgetsVariables = false) ∧ Call.TakenSince calls ∧
      (d.run calls).value? "v" = some (.boolean true) := by
  intro d calls
  have stored : d.value? "v" = some (.boolean true) := by decide +kernel
  have unassigned : "v" ∉ d.assignedAll calls := by decide +kernel
  have kept : ∀ c ∈ calls, c.forgetsVariables = false := by decide
  have since : Call.TakenSince calls := by
    intro before key p later eq
    dsimp only [calls] at eq
    rcases before with _ | ⟨first, _ | ⟨second, rest⟩⟩
    · cases (List.cons.inj eq).1
    · cases eq
      exact ⟨resting "a", ⟨0, 0⟩, List.mem_singleton_self _⟩
    · cases rest <;> cases eq
  exact ⟨stored, unassigned, kept, since,
    d.value?_run_of_takenSince calls "v" (.boolean true) stored unassigned kept since⟩

/-- Calls for one ball or for one square do not interleave here. The context of the first
    ball is older than the value that the second ball writes, and the run in it assigns
    nothing; yet the value is gone afterwards. -/
theorem not_kept_of_serial :
    let before := [.take "c" (resting "a") ⟨0, 0⟩, .collide (setting "v") (resting "b") ⟨1, 0⟩]
    let later := [.resume "c" ⟨"nothing", [], none⟩]
    let d := Desk.fresh.run before
    Call.Serial (before ++ later) ∧ "v" ∈ Desk.fresh.assignedAll before ∧
      d.value? "v" = some (.boolean true) ∧ d.assignedAll later = [] ∧
      (∀ c ∈ later, c.forgetsVariables = false) ∧ (d.run later).value? "v" = none := by
  intro before later d
  refine ⟨?_, by decide +kernel, by decide +kernel, by decide +kernel, by decide,
    by decide +kernel⟩
  intro earlier key b q between p rest eq _ _ c mem
  rcases earlier with _ | ⟨_, _ | ⟨_, _ | ⟨_, earlier⟩⟩⟩
  · -- the only run in two steps, with one call between them
    rcases between with _ | ⟨_, _ | ⟨_, between⟩⟩
    · cases mem
    · cases eq
      obtain rfl := List.mem_singleton.1 mem
      decide
    · cases between <;> cases eq
  · cases eq
  · cases eq
  · cases earlier <;> cases eq

end Carom
