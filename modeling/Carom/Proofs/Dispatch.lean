import Carom.Proofs.Unrolling
import Mathlib.Order.WellFounded

/-!
# Programs that are run next

An action can name a program for the simulation to run next, which gives actions again. Whether
this comes to an end depends on who names programs. An instruction never does (`inOrder_expand`),
so nor does a run, at whatever depth (`Course.wellFormed`). Only the steps of a square do, and they
name programs of the square (`Step.wellFormed_actions`).

A simulation that works off actions one by one (`Driver.Step`), in whatever order, and running the
programs in whatever contexts, so has one program less to run whenever it has run one. In all it
runs as many as were named in the beginning (`Driver.Run.add_waiting`), and does not go on for ever
(`Driver.wellFounded_step`).

* `dispatchesOnce`: after a collision these are at most as many as there are steps that are due.
-/

namespace Carom

/-! ## Actions that are in order -/

/-- An action that is in order where these are the programs that may be run next: it does
    something, and a sample has an index from zero on. -/
def Action.WellFormed (programs : List Program) : Action → Prop
  | execute p => p ∈ programs
  | none => False
  | playSample index => 0 ≤ index
  | _ => True

/-- Whether an action names a program to run next. -/
def Action.isDispatch : Action → Bool
  | execute _ => true
  | _ => false

namespace Action

variable {programs : List Program} {a : Action}

/-- An action stays in order when there are more programs to run next. -/
theorem WellFormed.mono {more : List Program} (h : a.WellFormed programs)
    (subset : programs ⊆ more) : a.WellFormed more := by
  cases a with
  | execute p => exact subset h
  | _ => exact h

/-- An action that is in order where there is no program names none. -/
theorem WellFormed.isDispatch_eq_false (h : a.WellFormed []) : a.isDispatch = false := by
  cases a with
  | execute p => exact absurd h List.not_mem_nil
  | _ => rfl

/-- Actions that are in order without a program name none. -/
theorem countP_isDispatch_eq_zero {actions : List Action} (h : ∀ a ∈ actions, a.WellFormed []) :
    actions.countP isDispatch = 0 :=
  List.countP_eq_zero.2 fun a mem named =>
    Bool.false_ne_true ((h a mem).isDispatch_eq_false.symm.trans named)

end Action

/-- A run whose actions are all in order, wherever it ends well. -/
def Execution.InOrder {α : Type} (actions : α → List Action) (programs : List Program)
    (e : Execution α) : Prop :=
  ∀ s a t, e s = .ok a t → ∀ action ∈ actions a, action.WellFormed programs

namespace Execution

variable {α β : Type} {actions : β → List Action} {programs : List Program}

theorem inOrder_pure {b : β} (h : ∀ action ∈ actions b, action.WellFormed programs) :
    InOrder actions programs (pure b) := by
  intro s b' t ended
  cases ended
  exact h

theorem inOrder_singleton (a : Action) (h : a.WellFormed programs) :
    InOrder id programs (pure [a]) :=
  inOrder_pure fun _ mem => List.mem_singleton.1 mem ▸ h

theorem inOrder_skip (m : Mishap) : (skip m).InOrder id programs := by
  intro s b t ended
  cases ended
  exact List.forall_mem_nil _

theorem inOrder_assign (name : String) (v : Value) : (assign name v).InOrder id programs := by
  intro s b t ended
  cases ended
  exact List.forall_mem_nil _

/-- What a run asks for is settled by the last of its parts. -/
theorem InOrder.bind {e : Execution α} {f : α → Execution β}
    (h : ∀ a, (f a).InOrder actions programs) : (e >>= f).InOrder actions programs := by
  intro s b u ended
  obtain ⟨a, t, -, later⟩ := exists_of_bind_eq_ok ended
  exact h a t b u later

/-- The block that an instruction gives way to asks for nothing yet. -/
theorem InOrder.bind_pure {e : Execution (List Action)} (h : e.InOrder id programs)
    (block : List Instruction) :
    InOrder Prod.fst programs (e >>= fun actions => pure (actions, block)) := by
  intro s a u ended
  obtain ⟨done, t, first, last⟩ := exists_of_bind_eq_ok ended
  cases last
  exact h s done _ first

end Execution

namespace Instruction

open Execution

/-- What an instruction asks for by itself is in order, and names no program. -/
theorem inOrder_expand (i : Instruction) : i.expand.InOrder Prod.fst [] := by
  cases i with
  | setSpeed value =>
    refine InOrder.bind_pure (.bind fun v => ?_) []
    split
    · exact inOrder_singleton _ trivial
    · exact inOrder_skip _
  | setDirection value =>
    refine InOrder.bind_pure (.bind fun v => ?_) []
    split
    · exact inOrder_singleton _ trivial
    · exact inOrder_skip _
  | bounce => exact InOrder.bind_pure (inOrder_singleton .bounce trivial) []
  | stop => exact InOrder.bind_pure (inOrder_singleton .stop trivial) []
  | setVariable name value => exact InOrder.bind_pure (.bind fun v => inOrder_assign name v) []
  | ifThen condition thenBlock =>
    exact .bind fun v => inOrder_pure (List.forall_mem_nil _)
  | ifElse condition thenBlock elseBlock =>
    exact .bind fun v => inOrder_pure (List.forall_mem_nil _)
  | loop count body =>
    refine .bind fun v => ?_
    split
    · exact inOrder_pure (List.forall_mem_nil _)
    · exact (inOrder_skip _).bind_pure []
  | playSample index =>
    refine InOrder.bind_pure (.bind fun v => ?_) []
    split
    · split
      · -- The index is a natural number.
        exact inOrder_singleton _ (Int.natCast_nonneg _)
      · exact inOrder_skip _
    · exact inOrder_skip _
  | spawnBall x y speed direction =>
    refine InOrder.bind_pure (.bind fun _ => .bind fun _ => .bind fun _ => .bind fun _ => ?_) []
    split
    · exact inOrder_singleton _ trivial
    · exact inOrder_skip _
  | print value =>
    exact InOrder.bind_pure (.bind fun (v : Value) => inOrder_singleton (.print v.text) trivial) []

/-- So is what a run asks for. -/
theorem Course.wellFormed {block : List Instruction} {s : Scene}
    {trace : List (Scene × Instruction)} {actions : List Action} {t : Scene}
    (course : Course block s trace (.ok actions t)) : ∀ a ∈ actions, a.WellFormed [] := by
  induction course using Course.induction_ok with
  | done s => exact List.forall_mem_nil _
  | next expanded _ ih => exact List.forall_mem_append.2 ⟨inOrder_expand _ _ _ _ expanded, ih⟩

/-- So no run of a block names a program. -/
theorem inOrder_execAll (block : List Instruction) : (execAll block).InOrder id [] := by
  intro s actions t ended
  obtain ⟨trace, course⟩ := execAll_eq_iff_course.1 ended
  exact course.wellFormed

end Instruction

/-! ## Collisions -/

/-- The action of a step is in order, with the programs of the square. -/
theorem Step.wellFormed_actions {programs : List Program} {speed : Binary64} {steps : List Step} :
    ∀ a ∈ Step.actions programs speed steps, a.WellFormed programs := by
  intro a mem
  obtain ⟨t, -, asked⟩ := List.mem_filterMap.1 mem
  cases effect : t.effect with
  | playSample i =>
    rw [effect] at asked
    obtain rfl := Option.some.inj asked
    exact Int.natCast_nonneg i
  | execute i =>
    rw [effect] at asked
    obtain ⟨p, found, rfl⟩ := Option.map_eq_some_iff.1 asked
    exact List.mem_of_getElem? found
  | _ =>
    rw [effect] at asked
    obtain rfl := Option.some.inj asked
    trivial

namespace Executor

variable {x : Executor} {actions : List Action}

/-- Nor does a run that is committed. -/
theorem wellFormed_runAndCommit {p : Program} {c : Context}
    (ended : (x.runAndCommit p.run c).result = .ok actions) : ∀ a ∈ actions, a.WellFormed [] := by
  obtain ⟨t, ran, -⟩ := x.exists_ok_of_runAndCommit ended
  exact Instruction.inOrder_execAll p.instructions _ _ _ ran

/-- A square names its own programs, in its steps; its active program names none. -/
theorem wellFormed_collideSquare {s : Square} {b : Ball} {q : Position}
    (ended : (x.collideSquare s b q).result = .ok actions) :
    ∀ a ∈ actions, a.WellFormed s.programs := by
  cases active : s.activeProgram? with
  | some p =>
    rw [collideSquare, active] at ended
    exact fun a mem => (wellFormed_runAndCommit ended a mem).mono (List.nil_subset _)
  | none =>
    rw [x.collideSquare_of_inactive active b q] at ended
    obtain rfl := Except.ok.inj ended
    exact Step.wellFormed_actions

end Executor

/-! ## Working off actions -/

/-- The actions of a run; a run that fails gives none. -/
def Ran.actions (r : Ran) : List Action :=
  match r.result with
  | .ok actions => actions
  | .error _ => []

/-- A run that fails asks for nothing, and so is in order as well. -/
theorem Ran.wellFormed_actions {x : Executor} {p : Program} {c : Context} :
    ∀ a ∈ (x.execute p c).actions, a.WellFormed [] := by
  rw [actions]
  split
  · rename_i ended
    exact Executor.wellFormed_runAndCommit ended
  · exact List.forall_mem_nil _

/-- A simulation at work: its executor, and the actions that it has not worked off yet. -/
structure Driver where
  executor : Executor
  pending : List Action

namespace Driver

/-- How many programs are still to be run. -/
def waiting (d : Driver) : Nat := d.pending.countP Action.isDispatch

/-- A simulation works off one of its actions, whichever it takes, and runs so many programs in
    doing so. -/
inductive Step : Driver → Nat → Driver → Prop
  /-- An action that names no program is applied, whatever else the executor is used for. -/
  | apply {x : Executor} {pending rest : List Action} {a : Action} (y : Executor) :
    pending.Perm (a :: rest) → a.isDispatch = false → Step ⟨x, pending⟩ 0 ⟨y, rest⟩
  /-- A program that is named is run, in whatever context, and the actions of its run are to be
      worked off as well. -/
  | dispatch {x : Executor} {pending rest : List Action} {p : Program} (c : Context) :
    pending.Perm (.execute p :: rest) →
      Step ⟨x, pending⟩ 1 ⟨(x.execute p c).executor, (x.execute p c).actions ++ rest⟩

/-- Some steps, with the number of programs that are run in them. -/
inductive Run : Driver → Nat → Driver → Prop
  | none {d : Driver} : Run d 0 d
  | next {d e f : Driver} {m n : Nat} : d.Step m e → Run e n f → Run d (m + n) f

variable {d e f : Driver} {m n : Nat}

/-- A program that is run names no other, so there is one less to run. -/
theorem Step.add_waiting (step : d.Step n e) : n + e.waiting = d.waiting := by
  cases step with
  | @apply x pending rest a y taken plain =>
    have here : waiting ⟨x, pending⟩ = (a :: rest).countP Action.isDispatch := taken.countP_eq _
    rw [here, List.countP_cons_of_neg (by rw [plain]; exact Bool.false_ne_true), Nat.zero_add]
    rfl
  | @dispatch x pending rest p c taken =>
    have here : waiting ⟨x, pending⟩ = (.execute p :: rest).countP Action.isDispatch :=
      taken.countP_eq _
    rw [here, List.countP_cons_of_pos rfl, waiting, List.countP_append,
      Action.countP_isDispatch_eq_zero Ran.wellFormed_actions]
    omega

/-- So as many programs are run as have been named in the beginning, and are named no more. -/
theorem Run.add_waiting (run : d.Run n e) : n + e.waiting = d.waiting := by
  induction run with
  | none => exact Nat.zero_add _
  | next step _ ih =>
    have := step.add_waiting
    omega

/-- A step leaves less programs to run, or as many and less actions. -/
theorem Step.decreases (step : d.Step n e) : Prod.Lex (· < ·) (· < ·)
    (e.waiting, e.pending.length) (d.waiting, d.pending.length) := by
  have left := step.add_waiting
  cases step with
  | @apply x pending rest a y taken plain =>
    rw [Nat.zero_add] at left
    rw [left]
    refine .right _ ?_
    have length := taken.length_eq
    rw [List.length_cons] at length
    exact length ▸ Nat.lt_succ_self _
  | dispatch => exact .left _ _ (by omega)

/-- No simulation works for ever. -/
theorem wellFounded_step : WellFounded fun e d : Driver => ∃ n, d.Step n e := by
  have lex := (Prod.lex Nat.lt_wfRel Nat.lt_wfRel).wf
  refine Subrelation.wf (fun {e d} step => ?_)
    (InvImage.wf (fun d : Driver => (d.waiting, d.pending.length)) lex)
  obtain ⟨n, step⟩ := step
  exact step.decreases

/-- There is a step as long as there is an action. -/
theorem exists_step (h : d.pending ≠ []) : ∃ n e, d.Step n e := by
  obtain ⟨x, pending⟩ := d
  cases pending with
  | nil => exact absurd rfl h
  | cons a rest =>
    -- The order is free, so the first action will do.
    cases named : a.isDispatch with
    | false => exact ⟨_, _, .apply x (.refl _) named⟩
    | true =>
      cases a with
      | execute p => exact ⟨_, _, .dispatch {} (.refl _)⟩
      | _ => cases named

/-- There is a way to the end. -/
theorem exists_run (d : Driver) : ∃ e, d.Run d.waiting e ∧ e.pending = [] := by
  -- The measure of termination carries the induction: after any first step there is a way to the
  -- end.
  induction d using wellFounded_step.induction with
  | _ d ih =>
    by_cases done : d.pending = []
    · have none_waits : d.waiting = 0 := by rw [waiting, done, List.countP_nil]
      exact ⟨d, none_waits ▸ .none, done⟩
    · obtain ⟨m, e, step⟩ := exists_step done
      obtain ⟨f, run, empty⟩ := ih e ⟨m, step⟩
      exact ⟨f, step.add_waiting ▸ .next step run, empty⟩

/-- A simulation that runs at most so many programs, in whatever way it goes on, and then stops. -/
structure Settles (d : Driver) (most : Nat) : Prop where
  atMost : ∀ n e, d.Run n e → n ≤ most
  /-- It does not go on for ever. -/
  stops : ¬∃ f : Nat → Driver, f 0 = d ∧ ∀ i, ∃ n, (f i).Step n (f (i + 1))
  /-- Where it cannot go on, every action is worked off, and every program that was named is run. -/
  finished : ∀ n e, d.Run n e → (∀ m f, ¬e.Step m f) → e.pending = [] ∧ n = d.waiting
  ends : ∃ e, d.Run d.waiting e ∧ e.pending = []

/-- As many programs are run as wait, so it is enough to bound those. -/
theorem settles {most : Nat} (h : d.waiting ≤ most) : d.Settles most where
  atMost n e run := by
    have := run.add_waiting
    omega
  stops := by
    rintro ⟨f, -, steps⟩
    -- Without end, the steps would be a descending chain.
    exact (wellFounded_iff_isEmpty_descending_chain.1 wellFounded_step).false ⟨f, steps⟩
  finished n e run stuck := by
    have nothing : e.pending = [] := Decidable.not_not.1 fun some => by
      obtain ⟨m, f, step⟩ := exists_step some
      exact stuck m f step
    refine ⟨nothing, ?_⟩
    have left := run.add_waiting
    rwa [waiting, nothing, List.countP_nil] at left
  ends := d.exists_run

end Driver

/-! ## What comes of a collision -/

namespace Executor

variable {x : Executor} {actions : List Action}

/-- The steps that a collision runs: those that are due, unless a program is active. -/
def matching (x : Executor) (s : Square) (q : Position) : List Step :=
  if s.active.isSome then [] else s.due (x.store.squareHits q + 1)

/-- Each step that takes place names at most one program. -/
theorem waiting_collideSquare_le {s : Square} {b : Ball} {q : Position}
    (ended : (x.collideSquare s b q).result = .ok actions) :
    (⟨(x.collideSquare s b q).executor, actions⟩ : Driver).waiting ≤ (x.matching s q).length := by
  cases active : s.activeProgram? with
  | some p =>
    rw [collideSquare, active] at ended
    exact Nat.le_trans (Nat.le_of_eq (Action.countP_isDispatch_eq_zero
      (wellFormed_runAndCommit ended))) (Nat.zero_le _)
  | none =>
    have inactive : s.active.isSome = false := by rw [← s.isSome_activeProgram?, active]; rfl
    rw [x.collideSquare_of_inactive active b q] at ended
    obtain rfl := Except.ok.inj ended
    rw [matching, inactive, if_neg Bool.false_ne_true]
    exact Nat.le_trans List.countP_le_length (List.length_filterMap_le _ _)

/-- A script is a program like any other and names none. -/
theorem wellFormed_collideScript {source : String} {b : Ball} {q : Position}
    (ended : (x.collideScript source b q).result = .ok (.actions actions)) :
    ∀ a ∈ actions, a.WellFormed [] := by
  simp only [Executor.collideScript, Store.collideScript] at ended
  cases read : Script.read source with
  | error e =>
    rw [read] at ended
    cases ended
  | ok p =>
    rw [read] at ended
    dsimp only at ended
    cases ran : (collide ⟨x.store, { source := fun _ => .zero }⟩ p b q).result with
    | error err =>
      rw [ran] at ended
      cases ended
    | ok given =>
      rw [ran] at ended
      cases ended
      exact wellFormed_runAndCommit ran

/-- What actions there are, and what comes of those that name a program. -/
structure DispatchesOnce (x : Executor) : Prop where
  /-- Whatever instructions are run in whatever scene, none of their actions names a program, none
      does nothing, and samples have an index from zero on. -/
  run : ∀ block s t actions, Instruction.execAll block s = .ok actions t →
    ∀ a ∈ actions, a.WellFormed []
  /-- An action of a square that names a program names one of its programs; none does nothing, and
      samples have an index from zero on. -/
  square : ∀ s b q actions, (x.collideSquare s b q).result = .ok actions →
    ∀ a ∈ actions, a.WellFormed s.programs
  /-- Of a collision with a square comes at most one run of a program for each step that takes
      place, and then no more. -/
  collideSquare : ∀ s b q actions, (x.collideSquare s b q).result = .ok actions →
    Driver.Settles ⟨(x.collideSquare s b q).executor, actions⟩ (x.matching s q).length
  /-- Of a collision with a program, or with a script, comes none. -/
  collide : ∀ p b q actions, (x.collide p b q).result = .ok actions →
    Driver.Settles ⟨(x.collide p b q).executor, actions⟩ 0
  collideScript : ∀ source b q actions,
    (x.collideScript source b q).result = .ok (.actions actions) →
      Driver.Settles ⟨(x.collideScript source b q).executor, actions⟩ 0

/-- No run names a program, so what a collision names is run once, and then no more. -/
theorem dispatchesOnce (x : Executor) : x.DispatchesOnce where
  run block _ _ _ := Instruction.inOrder_execAll block _ _ _
  square _ _ _ _ := wellFormed_collideSquare
  collideSquare _ _ _ _ ended := Driver.settles (waiting_collideSquare_le ended)
  collide _ _ _ _ ended :=
    Driver.settles (Nat.le_of_eq (Action.countP_isDispatch_eq_zero (wellFormed_runAndCommit ended)))
  collideScript _ _ _ _ ended :=
    Driver.settles
      (Nat.le_of_eq (Action.countP_isDispatch_eq_zero (wellFormed_collideScript ended)))

end Executor

end Carom
