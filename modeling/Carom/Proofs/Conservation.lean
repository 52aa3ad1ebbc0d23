import Carom.Proofs.Evaluation
import Carom.Proofs.Unrolling

/-!
# No instruction vanishes

Each instruction that asks for an action gives one or is counted as dropped, and nothing else is:
not an assignment, a branch or a loop by itself, nor anything in an evaluation
(`Instruction.accounts_expand`). Over the course of a run this adds up to as many actions and
dropped instructions as instructions were executed that ask for one (`Course.length_add_dropped`),
and the same holds of the steps of a square.
-/

namespace Carom

/-- A run that gives so many actions, the instructions that it counts as dropped included, wherever
    it ends well. -/
def Execution.Accounts {α : Type} (actions : α → List Action) (n : Nat) (e : Execution α) : Prop :=
  ∀ s a t, e s = .ok a t → (actions a).length + t.engine.tally.droppedInstruction =
    s.engine.tally.droppedInstruction + n

namespace Execution

variable {α : Type} {actions : α → List Action} {n : Nat}

/-- What is given without a run counts as it is. -/
theorem accounts_pure {a : α} (h : (actions a).length = n) : Accounts actions n (pure a) := by
  intro s a' t ended
  cases ended
  rw [h, Nat.add_comm]

/-- An instruction that is skipped gives no action, and counts as dropped. -/
theorem accounts_skip {m : Mishap} (dropped : m.fallback = .droppedInstruction) :
    (skip m).Accounts id 1 := by
  intro s a t ended
  cases ended
  have counted := s.engine.count_record m .droppedInstruction
  rw [if_pos dropped] at counted
  exact (Nat.zero_add _).trans counted

/-- To skip a loop is not to drop an instruction. -/
theorem accounts_skip_loop (kind : Kind) : (skip (.loopCount kind)).Accounts id 0 := by
  intro s a t ended
  cases ended
  exact Nat.zero_add _

theorem accounts_assign (name : String) (v : Value) : (assign name v).Accounts id 0 := by
  intro s a t ended
  cases ended
  exact Nat.zero_add _

/-- No instruction is dropped by an evaluation. -/
theorem accounts_evaluate_bind {e : Expression} {f : Value → Execution α}
    (h : ∀ v, (f v).Accounts actions n) : Accounts actions n (evaluate e >>= f) := by
  intro s a u ended
  obtain ⟨v, t, evaluated, later⟩ := exists_of_bind_eq_ok ended
  obtain ⟨-, rfl⟩ := Expression.valueAt_of_evaluate evaluated
  -- An evaluation has mishaps of other kinds only.
  have kept := s.engine.count_after e.draws
    (e.mishapsAt s.context s.engine.source s.engine.drawn) .droppedInstruction
  rw [Expression.countP_mishapsAt] at kept
  rw [h v _ a u later]
  exact congrArg (· + n) kept

/-- The block that an instruction gives way to is not accounted for yet. -/
theorem Accounts.bind_pure {e : Execution (List Action)} (h : e.Accounts id n)
    (block : List Instruction) :
    Accounts Prod.fst n (e >>= fun actions => pure (actions, block)) := by
  intro s a u ended
  obtain ⟨done, t, first, last⟩ := exists_of_bind_eq_ok ended
  cases last
  exact h s done _ first

end Execution

namespace Instruction

open Execution

/-- An instruction that asks for an action. -/
def asks : Instruction → Bool
  | setSpeed _ | setDirection _ | bounce | stop | playSample _ | spawnBall .. | print _ => true
  | _ => false

/-- An instruction that gives a variable a value. -/
def isAssignment : Instruction → Bool
  | setVariable .. => true
  | _ => false

/-- An instruction without a block of its own. -/
def isPlain : Instruction → Bool
  | ifThen .. | ifElse .. | loop .. => false
  | _ => true

/-- An instruction by itself gives one action or is counted as dropped, if it asks for an action. -/
theorem accounts_expand (i : Instruction) :
    i.expand.Accounts Prod.fst (if i.asks then 1 else 0) := by
  -- An instruction with a block does nothing by itself but choose what takes its place.
  cases i with
  | setSpeed value =>
    refine Accounts.bind_pure (n := 1) ?_ []
    rw [exec]
    refine accounts_evaluate_bind fun v => ?_
    split
    · exact accounts_pure rfl
    · exact accounts_skip rfl
  | setDirection value =>
    refine Accounts.bind_pure (n := 1) ?_ []
    rw [exec]
    refine accounts_evaluate_bind fun v => ?_
    split
    · exact accounts_pure rfl
    · exact accounts_skip rfl
  | bounce => exact Accounts.bind_pure (accounts_pure rfl) []
  | stop => exact Accounts.bind_pure (accounts_pure rfl) []
  | setVariable name value =>
    refine Accounts.bind_pure (n := 0) ?_ []
    rw [exec]
    exact accounts_evaluate_bind fun v => accounts_assign name v
  | ifThen condition thenBlock => exact accounts_evaluate_bind fun v => accounts_pure rfl
  | ifElse condition thenBlock elseBlock =>
    exact accounts_evaluate_bind fun v => accounts_pure rfl
  | loop count body =>
    refine accounts_evaluate_bind (n := 0) fun v => ?_
    split
    · exact accounts_pure rfl
    · exact (accounts_skip_loop _).bind_pure []
  | playSample index =>
    refine Accounts.bind_pure (n := 1) ?_ []
    rw [exec]
    refine accounts_evaluate_bind fun v => ?_
    split
    · split
      · exact accounts_pure rfl
      · exact accounts_skip rfl
    · exact accounts_skip rfl
  | spawnBall x y speed direction =>
    refine Accounts.bind_pure (n := 1) ?_ []
    rw [exec]
    refine accounts_evaluate_bind fun _ => accounts_evaluate_bind fun _ =>
      accounts_evaluate_bind fun _ => accounts_evaluate_bind fun _ => ?_
    split
    · exact accounts_pure rfl
    · exact accounts_skip rfl
  | print value =>
    refine Accounts.bind_pure (n := 1) ?_ []
    rw [exec]
    exact accounts_evaluate_bind fun _ => accounts_pure rfl

/-! ## Whole runs -/

/-- Over the course of a run there are as many actions and dropped instructions as instructions
    that ask for an action. -/
theorem Course.length_add_dropped {block : List Instruction} {s : Scene}
    {trace : List (Scene × Instruction)} {actions : List Action} {t : Scene}
    (course : Course block s trace (.ok actions t)) :
    actions.length + t.engine.tally.droppedInstruction =
      s.engine.tally.droppedInstruction + trace.countP fun turn => turn.2.asks := by
  induction course using Course.induction_ok with
  | done s => exact Nat.add_comm _ _
  | @next i rest block s u first trace more t expanded _ ih =>
    -- What the first instruction adds, and what is added later, come to the sum.
    have now := i.accounts_expand s _ u expanded
    rw [List.length_append, List.countP_cons]
    dsimp only at now ⊢
    omega

/-- The course of a block without branches and loops is the block. -/
theorem Course.map_snd_of_isPlain {block : List Instruction} {s : Scene}
    {trace : List (Scene × Instruction)} {actions : List Action} {t : Scene}
    (course : Course block s trace (.ok actions t)) (plain : ∀ i ∈ block, i.isPlain) :
    trace.map Prod.snd = block := by
  induction course using Course.induction_ok with
  | done s => rfl
  | @next i rest block s u first trace more t expanded _ ih =>
    obtain ⟨here, later⟩ := List.forall_mem_cons.1 plain
    -- Nothing takes the place of an instruction without a block.
    obtain rfl : block = [] := by
      cases givesWay_of_expand expanded with
      | toNothing => rfl
      | _ => cases here
    rw [List.map_cons, ih later]
    rfl

end Instruction

/-- So many steps as are due are accounted for. -/
theorem Step.accounts_runAll (programs : List Program) (steps : List Step) (s : Scene) :
    ∃ actions t, runAll programs steps s = .ok actions t ∧
      actions.length + t.engine.tally.droppedInstruction =
        s.engine.tally.droppedInstruction + steps.countP (fires s.context) := by
  obtain ⟨c, g⟩ := s
  -- Steps leave the context alone, so which of them are due is known beforehand.
  refine ⟨_, _, runAll_eq programs steps c g, ?_⟩
  have dropped := g.count_recordAll (mishaps programs (steps.filter (fires c))) .droppedInstruction
  rw [countP_mishaps, if_pos rfl] at dropped
  have asked := length_actions_add programs c.ballSpeed (steps.filter (fires c))
  rw [← List.countP_eq_length_filter] at asked
  dsimp only [Tally.count] at dropped ⊢
  omega

namespace Instruction

/-- How the instructions of a block and the steps of a square are accounted for from a scene. -/
structure AccountedFor (s : Scene) : Prop where
  /-- Each run that ends well has a course, and there are as many actions and dropped instructions
      as instructions in it that ask for an action. -/
  run : ∀ block actions t, execAll block s = .ok actions t →
    (∃ trace, Course block s trace (.ok actions t)) ∧
      ∀ trace, Course block s trace (.ok actions t) →
        actions.length + t.engine.tally.droppedInstruction =
          s.engine.tally.droppedInstruction + trace.countP fun turn => turn.2.asks
  /-- If the block has no branches and loops, these are all its instructions but assignments. -/
  plain : ∀ block actions t, (∀ i ∈ block, i.isPlain) → execAll block s = .ok actions t →
    actions.length + t.engine.tally.droppedInstruction =
      s.engine.tally.droppedInstruction + block.countP fun i => !i.isAssignment
  /-- For the steps of a square, these are the steps whose trigger is the hit of the square. -/
  steps : ∀ programs steps, ∃ actions t, Step.runAll programs steps s = .ok actions t ∧
    actions.length + t.engine.tally.droppedInstruction = s.engine.tally.droppedInstruction +
      steps.countP fun step => (step.trigger : Int) == s.context.squareHits

/-- Of the instructions without a block only assignments do not ask for an action. -/
theorem asks_eq_not_isAssignment {i : Instruction} (plain : i.isPlain) :
    i.asks = !i.isAssignment := by
  cases i with
  | ifThen | ifElse | loop => cases plain
  | _ => rfl

/-- No instruction that is executed, and no step that is due, vanishes. -/
theorem accountsForAll (s : Scene) : AccountedFor s where
  run block actions t ended :=
    ⟨execAll_eq_iff_course.1 ended, fun trace course => course.length_add_dropped⟩
  plain block actions t plain ended := by
    obtain ⟨trace, course⟩ := execAll_eq_iff_course.1 ended
    have executed := course.map_snd_of_isPlain plain
    have counted : (trace.countP fun turn => turn.2.asks) =
        block.countP fun i => !i.isAssignment :=
      calc (trace.countP fun turn => turn.2.asks)
          = (trace.map Prod.snd).countP asks := by
            rw [List.countP_map]
            rfl
        _ = block.countP asks := by rw [executed]
        _ = block.countP fun i => !i.isAssignment :=
          List.countP_congr fun i mem => by rw [asks_eq_not_isAssignment (plain i mem)]
    rw [course.length_add_dropped, counted]
  steps programs steps := Step.accounts_runAll programs steps s

/-- A loop in which one of two instructions is dropped each time, and the one that stands behind
    it. -/
theorem accountsForAll_dropped_in_loop :
    let block : List Instruction :=
      [.loop (.number (Binary64.ofInt 2)) [.setSpeed (.literal (.boolean true)), .bounce], .stop]
    let s : Scene := ⟨{}, { source := fun _ => .zero }⟩
    ∃ actions t trace, execAll block s = .ok actions t ∧ Course block s trace (.ok actions t) ∧
      actions.length = 3 ∧ t.engine.tally.droppedInstruction = 2 ∧
      (trace.countP fun turn => turn.2.asks) = 5 := by
  intro block s
  have acts : ((execAll block).outcome s).toOption.map List.length = some 3 := by decide +kernel
  have drops : ((execAll block).final s).engine.tally.droppedInstruction = 2 := by decide +kernel
  rw [Execution.outcome] at acts
  rw [Execution.final] at drops
  cases ended : execAll block s with
  | ok actions t =>
    rw [ended] at acts drops
    obtain ⟨⟨trace, course⟩, counted⟩ := (accountsForAll s).run block actions t ended
    have length : actions.length = 3 := Option.some.inj acts
    have dropped : t.engine.tally.droppedInstruction = 2 := drops
    have asked := counted trace course
    have none : s.engine.tally.droppedInstruction = 0 := rfl
    exact ⟨actions, t, trace, rfl, course, length, dropped, by omega⟩
  | error err t =>
    rw [ended] at acts
    cases acts

end Instruction

end Carom
