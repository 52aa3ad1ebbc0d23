import Carom.Proofs.Collision
import Carom.Proofs.Evaluation
import Carom.Proofs.Unrolling

/-!
# Kinds that are kept

Each variable is meant to hold values of one kind. An expression then has a kind of its own
(`Expression.HasKind`), if its operations are defined on the kinds of their operands, and an
instruction uses the kinds that it needs (`Instruction.WellKinded`) or does not.

A variable without a value reads as the number zero, and so does a quotient by zero, so nothing but
variables of other kinds has to have a value before it is read (`Variables.Fit`).

* `kind_valueAt`, `countP_isMismatch`: the value of an expression is of its kind, and no operation
  in it is applied to the wrong kinds.
* `runsClean_expand`: an instruction keeps the variables to their kinds and drops nothing, but a
  sample whose index is no finite number.
* `Course.keptTo`: so does the course of a run.
* `fit_after`, `fit_performAll`: what is committed is of its kinds, so the store stays so over a
  history.
* `trueToKinds`: all of this.
-/

namespace Carom

/-! ## What has a kind -/

/-- The kind of an expression, where variables have these kinds. -/
inductive Expression.HasKind (kinds : String → Kind) : Expression → Kind → Prop
  | literal (v : Value) : HasKind kinds (.literal v) v.kind
  | var (name : String) : HasKind kinds (.var name) (kinds name)
  | random (min max : Binary64) : HasKind kinds (.random min max) .number
  | direction : HasKind kinds (.ball .direction) .direction
  | ball {p : BallProperty} : p ≠ .direction → HasKind kinds (.ball p) .number
  | binary {op : BinaryOp} {left right : Expression} {k k' kind : Kind} :
    HasKind kinds left k → HasKind kinds right k' → op.kind? k k' = some kind →
      HasKind kinds (.binary op left right) kind

/-- An instruction whose expressions have the kinds that it needs. What is printed may be of any
    kind. -/
inductive Instruction.WellKinded (kinds : String → Kind) : Instruction → Prop
  | setSpeed {value : Expression} : value.HasKind kinds .number → WellKinded kinds (.setSpeed value)
  | setDirection {value : Expression} :
    value.HasKind kinds .direction → WellKinded kinds (.setDirection value)
  | bounce : WellKinded kinds .bounce
  | stop : WellKinded kinds .stop
  | setVariable {name : String} {value : Expression} :
    value.HasKind kinds (kinds name) → WellKinded kinds (.setVariable name value)
  | ifThen {condition : Expression} {thenBlock : List Instruction} :
    condition.HasKind kinds .boolean → (∀ i ∈ thenBlock, WellKinded kinds i) →
      WellKinded kinds (.ifThen condition thenBlock)
  | ifElse {condition : Expression} {thenBlock elseBlock : List Instruction} :
    condition.HasKind kinds .boolean → (∀ i ∈ thenBlock, WellKinded kinds i) →
      (∀ i ∈ elseBlock, WellKinded kinds i) →
      WellKinded kinds (.ifElse condition thenBlock elseBlock)
  | loop {count : Expression} {body : List Instruction} :
    count.HasKind kinds .number → (∀ i ∈ body, WellKinded kinds i) →
      WellKinded kinds (.loop count body)
  | playSample {index : Expression} :
    index.HasKind kinds .number → WellKinded kinds (.playSample index)
  | spawnBall {x y speed direction : Expression} :
    x.HasKind kinds .number → y.HasKind kinds .number → speed.HasKind kinds .number →
      direction.HasKind kinds .direction → WellKinded kinds (.spawnBall x y speed direction)
  | print {value : Expression} {k : Kind} : value.HasKind kinds k → WellKinded kinds (.print value)

/-- Variables whose values are of their kinds. Of those that occur, the ones that are no numbers
    have a value. -/
structure Variables.Fit (kinds : String → Kind) (uses : List Use) (vars : Variables) : Prop where
  kind : ∀ (name : String) (v : Value), vars[name]? = some v → v.kind = kinds name
  bound : ∀ name : String, .var name ∈ uses → kinds name ≠ .number → vars[name]?.isSome

/-- A variable may be given any value of its kind. -/
theorem Variables.Fit.insert {kinds : String → Kind} {uses : List Use} {vars : Variables}
    (fit : vars.Fit kinds uses) {name : String} {v : Value} (h : v.kind = kinds name) :
    Variables.Fit kinds uses (vars.insert name v) where
  kind other w found := by
    rw [Std.ExtTreeMap.getElem?_insert] at found
    split at found
    · rename_i same
      cases found
      rw [h, Std.LawfulEqCmp.compare_eq_iff_eq.1 same]
    · exact fit.kind other w found
  bound other occurs noNumber := by
    rw [Std.ExtTreeMap.getElem?_insert]
    split
    · rfl
    · exact fit.bound other occurs noNumber

/-! ## Values -/

namespace Expression

variable {kinds : String → Kind} {uses : List Use} {c : Context} {source : Nat → Binary64}

/-- The value of an expression is of its kind. -/
theorem kind_valueAt {e : Expression} {k : Kind} (typed : e.HasKind kinds k)
    (reads : e.reads ⊆ uses) (fit : c.variables.Fit kinds uses) (n : Nat) :
    (e.valueAt c source n).kind = k := by
  induction typed generalizing n with
  | literal v => rfl
  | var name =>
    rw [valueAt]
    cases found : c.variables[name]? with
    | some v => exact fit.kind name v found
    | none =>
      -- Only a number may be without a value, and reads as one.
      by_contra other
      have has := fit.bound name (reads (List.mem_singleton_self _)) fun number =>
        other number.symm
      rw [found] at has
      cases has
  | random => rfl
  | direction => rfl
  | @ball p other =>
    cases p with
    | direction => exact absurd rfl other
    | _ => rfl
  | binary _ _ defined ihLeft ihRight =>
    obtain ⟨readsLeft, readsRight⟩ := List.append_subset.1 reads
    refine BinaryOp.kind_result ?_
    rwa [ihLeft readsLeft, ihRight readsRight]

/-- No operation is applied to values of the wrong kinds. -/
theorem countP_isMismatch {e : Expression} {k : Kind} (typed : e.HasKind kinds k)
    (reads : e.reads ⊆ uses) (fit : c.variables.Fit kinds uses) (n : Nat) :
    (e.applicationsAt c source n).countP Application.isMismatch = 0 := by
  induction typed generalizing n with
  | binary left right defined ihLeft ihRight =>
    obtain ⟨readsLeft, readsRight⟩ := List.append_subset.1 reads
    rw [applicationsAt, List.countP_append, List.countP_append, ihLeft readsLeft,
      ihRight readsRight, List.countP_singleton, Application.isMismatch,
      kind_valueAt left readsLeft fit, kind_valueAt right readsRight fit, defined]
    rfl
  | _ => rfl

end Expression

/-! ## Scenes that are kept to the kinds -/

/-- A scene that has come of another one with the variables kept to their kinds, without a mismatch
    that was counted, and with so many dropped instructions. -/
structure Scene.KeptTo (kinds : String → Kind) (uses : List Use) (dropped : Nat) (s t : Scene) :
    Prop where
  fit : t.context.variables.Fit kinds uses
  typeMismatch : t.engine.tally.typeMismatch = s.engine.tally.typeMismatch
  droppedInstruction :
    t.engine.tally.droppedInstruction = s.engine.tally.droppedInstruction + dropped

/-- A run that keeps a scene to the kinds, wherever it ends well. -/
def Execution.RunsClean {α : Type} (kinds : String → Kind) (uses : List Use) (dropped : Nat)
    (e : Execution α) (s : Scene) : Prop :=
  ∀ a t, e s = .ok a t → s.KeptTo kinds uses dropped t

section Runs

variable {kinds : String → Kind} {uses : List Use} {m n : Nat} {r s t : Scene} {α : Type}

theorem Scene.KeptTo.refl (fit : s.context.variables.Fit kinds uses) : s.KeptTo kinds uses 0 s :=
  ⟨fit, rfl, rfl⟩

/-- What two parts of a run drop adds up. -/
theorem Scene.KeptTo.trans (first : r.KeptTo kinds uses m s) (next : s.KeptTo kinds uses n t) :
    r.KeptTo kinds uses (m + n) t where
  fit := next.fit
  typeMismatch := next.typeMismatch.trans first.typeMismatch
  droppedInstruction := by
    rw [next.droppedInstruction, first.droppedInstruction, Nat.add_assoc]

namespace Execution

/-- An evaluation gives a value of the kind of the expression, and keeps the scene to the kinds. -/
theorem evaluate_of_hasKind {e : Expression} {k : Kind} {v : Value} (typed : e.HasKind kinds k)
    (reads : e.reads ⊆ uses) (fit : s.context.variables.Fit kinds uses)
    (evaluated : evaluate e s = .ok v t) : v.kind = k ∧ s.KeptTo kinds uses 0 t := by
  obtain ⟨rfl, rfl⟩ := Expression.valueAt_of_evaluate evaluated
  have counted (f : Fallback) := s.engine.count_after e.draws
    (e.mishapsAt s.context s.engine.source s.engine.drawn) f
  simp only [Expression.countP_mishapsAt] at counted
  refine ⟨Expression.kind_valueAt typed reads fit _, fit, ?_, counted .droppedInstruction⟩
  exact (counted .typeMismatch).trans
    (congrArg (_ + ·) (Expression.countP_isMismatch typed reads fit s.engine.drawn))

theorem runsClean_pure (fit : s.context.variables.Fit kinds uses) (a : α) :
    RunsClean kinds uses 0 (pure a) s := by
  intro a' t ended
  cases ended
  exact .refl fit

/-- An instruction that is skipped is one more that is dropped. -/
theorem runsClean_skip (fit : s.context.variables.Fit kinds uses) {m : Mishap}
    (dropped : m.fallback = .droppedInstruction) : RunsClean kinds uses 1 (skip m) s := by
  intro a t ended
  cases ended
  have counted (f : Fallback) := s.engine.count_record m f
  simp only [dropped] at counted
  exact ⟨fit, counted .typeMismatch, counted .droppedInstruction⟩

/-- An assignment is clean if the value is of the kind of the variable. -/
theorem runsClean_assign (fit : s.context.variables.Fit kinds uses) {name : String} {v : Value}
    (h : v.kind = kinds name) : RunsClean kinds uses 0 (assign name v) s := by
  intro a t ended
  cases ended
  exact ⟨fit.insert h, rfl, rfl⟩

/-- What comes after an evaluation has a value of the right kind. -/
theorem runsClean_evaluate_bind {e : Expression} {k : Kind} {f : Value → Execution α}
    (typed : e.HasKind kinds k) (reads : e.reads ⊆ uses) (fit : s.context.variables.Fit kinds uses)
    (h : ∀ v t, evaluate e s = .ok v t → v.kind = k → t.context.variables.Fit kinds uses →
      RunsClean kinds uses n (f v) t) :
    RunsClean kinds uses n (evaluate e >>= f) s := by
  intro a u ended
  obtain ⟨v, t, evaluated, later⟩ := exists_of_bind_eq_ok ended
  obtain ⟨kind, kept⟩ := evaluate_of_hasKind typed reads fit evaluated
  have rest := kept.trans (h v t evaluated kind kept.fit a u later)
  rwa [Nat.zero_add] at rest

/-- To give way to a block is clean by itself. -/
theorem RunsClean.bind_pure {e : Execution (List Action)} (h : e.RunsClean kinds uses n s)
    (block : List Instruction) :
    RunsClean kinds uses n (e >>= fun actions => pure (actions, block)) s := by
  intro a u ended
  obtain ⟨done, t, first, last⟩ := exists_of_bind_eq_ok ended
  cases last
  exact h done _ first

end Execution

end Runs

/-! ## Instructions -/

namespace Instruction

open Execution

/-- A block whose instructions use the kinds that they need and read nothing but these. -/
def IsKinded (kinds : String → Kind) (uses : List Use) (block : List Instruction) : Prop :=
  ∀ i ∈ block, i.WellKinded kinds ∧ i.reads ⊆ uses

/-- A sample whose index, in the scene where it is to be played, is no finite number. -/
def hasNoIndex (turn : Scene × Instruction) : Bool :=
  match turn.2 with
  | .playSample index =>
    match evaluate index turn.1 with
    | .ok (.number n) _ => !n.isFinite
    | _ => false
  | _ => false

variable {kinds : String → Kind} {uses : List Use} {s : Scene}

/-- A block reads all that its instructions read. -/
theorem reads_subset_readsAll {i : Instruction} {block : List Instruction} (mem : i ∈ block) :
    i.reads ⊆ readsAll block := by
  induction mem with
  | head rest => exact List.subset_append_left _ _
  | tail j _ ih => exact List.subset_append_of_subset_right _ ih

/-- What a block reads occurs in it. -/
theorem isKinded_usesAll {block : List Instruction} (typed : ∀ i ∈ block, i.WellKinded kinds) :
    IsKinded kinds (usesAll block) block := fun i mem =>
  ⟨typed i mem, List.subset_append_of_subset_left _ (reads_subset_readsAll mem)⟩

/-- What takes the place of an instruction uses the kinds that it needs, if the instruction does. -/
theorem wellKinded_of_givesWay {i : Instruction} {block : List Instruction}
    (way : i.GivesWay block) (typed : i.WellKinded kinds) : ∀ j ∈ block, j.WellKinded kinds := by
  cases way with
  | toNothing => exact nofun
  | ifThen =>
    cases typed with
    | ifThen _ thenBlock => exact thenBlock
  | ifElse_true =>
    cases typed with
    | ifElse _ thenBlock _ => exact thenBlock
  | ifElse_false =>
    cases typed with
    | ifElse _ _ elseBlock => exact elseBlock
  | loop count body n =>
    cases typed with
    | loop _ body =>
      intro j mem
      obtain ⟨_, copy, mem⟩ := List.mem_flatten.1 mem
      rw [List.eq_of_mem_replicate copy] at mem
      exact body j mem

/-- What takes the place of an instruction reads nothing that the instruction does not read. -/
theorem reads_subset_of_givesWay {i j : Instruction} {block : List Instruction}
    (way : i.GivesWay block) (mem : j ∈ block) : j.reads ⊆ i.reads := by
  cases way with
  | toNothing => cases mem
  | ifThen => exact List.subset_append_of_subset_right _ (reads_subset_readsAll mem)
  | ifElse_true =>
    exact List.subset_append_of_subset_right _
      (List.subset_append_of_subset_left _ (reads_subset_readsAll mem))
  | ifElse_false =>
    exact List.subset_append_of_subset_right _
      (List.subset_append_of_subset_right _ (reads_subset_readsAll mem))
  | loop count body n =>
    obtain ⟨_, copy, mem⟩ := List.mem_flatten.1 mem
    rw [List.eq_of_mem_replicate copy] at mem
    exact List.subset_append_of_subset_right _ (reads_subset_readsAll mem)

/-- An instruction by itself keeps the scene to the kinds, and is dropped only if it is a sample
    whose index is no finite number. -/
theorem runsClean_expand {i : Instruction} (typed : i.WellKinded kinds) (reads : i.reads ⊆ uses)
    (fit : s.context.variables.Fit kinds uses) :
    i.expand.RunsClean kinds uses (if hasNoIndex (s, i) then 1 else 0) s := by
  cases typed with
  | setSpeed value =>
    refine RunsClean.bind_pure (n := 0) ?_ []
    rw [exec]
    refine runsClean_evaluate_bind value reads fit fun v t _ kind fit => ?_
    cases v with
    | number speed => exact runsClean_pure fit _
    | _ => cases kind
  | setDirection value =>
    refine RunsClean.bind_pure (n := 0) ?_ []
    rw [exec]
    refine runsClean_evaluate_bind value reads fit fun v t _ kind fit => ?_
    cases v with
    | direction d => exact runsClean_pure fit _
    | _ => cases kind
  | bounce => exact RunsClean.bind_pure (runsClean_pure fit _) []
  | stop => exact RunsClean.bind_pure (runsClean_pure fit _) []
  | @setVariable name _ value =>
    refine RunsClean.bind_pure (n := 0) ?_ []
    rw [exec]
    obtain ⟨reads, -⟩ := List.append_subset.1 reads
    exact runsClean_evaluate_bind value reads fit fun v t _ kind fit => runsClean_assign fit kind
  | ifThen condition _ =>
    obtain ⟨reads, -⟩ := List.append_subset.1 reads
    exact runsClean_evaluate_bind condition reads fit fun v t _ _ fit => runsClean_pure fit _
  | ifElse condition _ _ =>
    obtain ⟨reads, -⟩ := List.append_subset.1 reads
    exact runsClean_evaluate_bind condition reads fit fun v t _ _ fit => runsClean_pure fit _
  | loop count _ =>
    obtain ⟨reads, -⟩ := List.append_subset.1 reads
    refine runsClean_evaluate_bind (n := 0) count reads fit fun v t _ kind fit => ?_
    cases v with
    | number n => exact runsClean_pure fit _
    | _ => cases kind
  | playSample index =>
    refine RunsClean.bind_pure ?_ []
    rw [exec]
    refine runsClean_evaluate_bind index reads fit fun v t evaluated kind fit => ?_
    simp only [hasNoIndex, evaluated]
    cases v with
    | number n =>
      -- A number has an index iff it is finite.
      cases n with
      | finite => exact runsClean_pure fit _
      | _ => exact runsClean_skip fit rfl
    | _ => cases kind
  | spawnBall x y speed heading =>
    obtain ⟨readsX, reads⟩ := List.append_subset.1 reads
    obtain ⟨readsY, reads⟩ := List.append_subset.1 reads
    obtain ⟨readsSpeed, readsHeading⟩ := List.append_subset.1 reads
    refine RunsClean.bind_pure (n := 0) ?_ []
    rw [exec]
    refine runsClean_evaluate_bind x readsX fit fun vx _ _ kindX fit => ?_
    refine runsClean_evaluate_bind y readsY fit fun vy _ _ kindY fit => ?_
    refine runsClean_evaluate_bind speed readsSpeed fit fun vs _ _ kindSpeed fit => ?_
    refine runsClean_evaluate_bind heading readsHeading fit fun vd _ _ kindHeading fit => ?_
    cases vx <;> cases kindX
    cases vy <;> cases kindY
    cases vs <;> cases kindSpeed
    cases vd <;> cases kindHeading
    exact runsClean_pure fit _
  | print value =>
    refine RunsClean.bind_pure (n := 0) ?_ []
    rw [exec]
    exact runsClean_evaluate_bind value reads fit fun v t _ _ fit => runsClean_pure fit _

/-- Over the course of a run the scene is kept to the kinds, and nothing is dropped but samples
    whose index is no finite number. -/
theorem Course.keptTo {block : List Instruction} {trace : List (Scene × Instruction)}
    {actions : List Action} {t : Scene} (course : Course block s trace (.ok actions t))
    (typed : IsKinded kinds uses block) (fit : s.context.variables.Fit kinds uses) :
    s.KeptTo kinds uses (trace.countP hasNoIndex) t := by
  induction course using Course.induction_ok with
  | done s => exact .refl fit
  | @next i rest block s u first trace more t expanded _ ih =>
    obtain ⟨⟨kinded, reads⟩, later⟩ := List.forall_mem_cons.1 typed
    -- What is left to run uses its kinds too, as it is made of parts of what there was.
    have way := givesWay_of_expand expanded
    have next : IsKinded kinds uses (block ++ rest) := by
      refine List.forall_mem_append.2 ⟨fun j mem => ⟨?_, ?_⟩, later⟩
      · exact wellKinded_of_givesWay way kinded j mem
      · exact List.Subset.trans (reads_subset_of_givesWay way mem) reads
    have now := runsClean_expand kinded reads fit _ u expanded
    rw [List.countP_cons, Nat.add_comm]
    exact now.trans (ih next now.fit)

/-- A run that ends well has a course, over which the scene is kept to the kinds. -/
theorem IsKinded.exists_course {block : List Instruction} {actions : List Action} {t : Scene}
    (typed : IsKinded kinds uses block) (fit : s.context.variables.Fit kinds uses)
    (ended : execAll block s = .ok actions t) :
    ∃ trace, Course block s trace (.ok actions t) ∧
      s.KeptTo kinds uses (trace.countP hasNoIndex) t := by
  obtain ⟨trace, course⟩ := execAll_eq_iff_course.1 ended
  exact ⟨trace, course, course.keptTo typed fit⟩

end Instruction

/-! ## Histories -/

section Histories

variable {kinds : String → Kind} {uses : List Use}

open Instruction (IsKinded)

/-- An operation that brings no other kinds into the store: the programs that it runs use the kinds
    that they need, and variables that it commits are of their kinds. -/
def Operation.IsKinded (kinds : String → Kind) (uses : List Use) : Operation → Prop
  | collide p _ _ => Instruction.IsKinded kinds uses p.instructions
  | collideSquare s _ _ =>
    ∀ p, s.activeProgram? = some p → Instruction.IsKinded kinds uses p.instructions
  | collideScript source _ _ =>
    ∀ p, Script.read source = .ok p → Instruction.IsKinded kinds uses p.instructions
  | execute p c => Instruction.IsKinded kinds uses p.instructions ∧ c.variables.Fit kinds uses
  | commit c => c.variables.Fit kinds uses
  | resetVariables => Variables.Fit kinds uses ∅
  | resetAll => Variables.Fit kinds uses ∅
  | _ => True

namespace Executor

/-- What is committed of a run, or left if it fails, is of its kinds. -/
theorem fit_runAndCommit (x : Executor) {block : List Instruction} {c : Context}
    (typed : IsKinded kinds uses block) (fit : c.variables.Fit kinds uses)
    (stored : x.store.variables.Fit kinds uses) :
    (x.runAndCommit (Instruction.execAll block) c).executor.store.variables.Fit kinds uses := by
  simp only [runAndCommit, run]
  cases ran : Instruction.execAll block ⟨c, x.engine⟩ with
  | ok actions t =>
    obtain ⟨_, _, kept⟩ := typed.exists_course fit ran
    exact kept.fit
  | error err t => exact stored

/-- So is what is committed of a collision, which takes the variables of the store. -/
theorem fit_collide (x : Executor) {p : Program} (b : Ball) (q : Position)
    (typed : IsKinded kinds uses p.instructions) (stored : x.store.variables.Fit kinds uses) :
    (x.collide p b q).executor.store.variables.Fit kinds uses :=
  (x.countHit b q).fit_runAndCommit typed stored stored

/-- One operation keeps the variables of the store to their kinds. -/
theorem fit_after (x : Executor) {op : Operation} (kinded : op.IsKinded kinds uses)
    (stored : x.store.variables.Fit kinds uses) :
    (x.after op).store.variables.Fit kinds uses := by
  cases op with
  | collide p b q => exact x.fit_collide b q kinded stored
  | collideSquare s b q =>
    simp only [after, perform, ofRan, collideSquare]
    cases active : s.activeProgram? with
    | some p => exact x.fit_collide b q (kinded p active) stored
    | none =>
      -- Steps commit nothing.
      dsimp only
      rw [store_run]
      exact stored
  | collideScript source b q =>
    simp only [after, perform, collideScript, Store.collideScript]
    cases read : Script.read source with
    | ok p => exact fit_collide ⟨x.store, _⟩ b q (kinded p read) stored
    | error e => exact stored
  | execute p c => exact x.fit_runAndCommit kinded.1 kinded.2 stored
  | run block c =>
    have same : (x.after (.run block c)).store = x.store := x.store_run _ c
    rw [same]
    exact stored
  | evaluate e c =>
    simp only [after, perform, evaluate]
    cases e.eval c x.engine <;> exact stored
  | commit c => exact kinded
  | resetVariables => exact kinded
  | resetAll => exact kinded
  | _ => exact stored

/-- So does a history. -/
theorem fit_performAll (x : Executor) {ops : List Operation}
    (kinded : ∀ op ∈ ops, op.IsKinded kinds uses) (stored : x.store.variables.Fit kinds uses) :
    (x.performAll ops).store.variables.Fit kinds uses := by
  induction ops generalizing x with
  | nil => exact stored
  | cons op ops ih =>
    obtain ⟨first, later⟩ := List.forall_mem_cons.1 kinded
    exact ih (x.after op) later (x.fit_after first stored)

end Executor

end Histories

/-! ## All of it -/

/-- How blocks that use the kinds that they need run, where the variables are of their kinds. What
    they read, and so what has to have a value, are some of these uses. -/
structure TrueToKinds (kinds : String → Kind) (uses : List Use) : Prop where
  /-- A run that ends well has a course. No mismatch is counted in it, only samples whose index is
      no finite number are dropped, and the variables are of their kinds in the end. -/
  run : ∀ block s actions t, Instruction.IsKinded kinds uses block →
    s.context.variables.Fit kinds uses → Instruction.execAll block s = .ok actions t →
    (∃ trace, Instruction.Course block s trace (.ok actions t)) ∧
      ∀ trace, Instruction.Course block s trace (.ok actions t) →
        s.KeptTo kinds uses (trace.countP Instruction.hasNoIndex) t
  /-- The same holds of a collision, which commits these variables. -/
  collision : ∀ (x : Executor) p b q actions, Instruction.IsKinded kinds uses p.instructions →
    x.store.variables.Fit kinds uses → (x.collide p b q).result = .ok actions →
    ∃ trace t, Instruction.Course p.instructions (x.scene b q) trace (.ok actions t) ∧
      (x.scene b q).KeptTo kinds uses (trace.countP Instruction.hasNoIndex) t ∧
      (x.collide p b q).executor = ⟨(x.store.countHit b.identity q).commit t.context, t.engine⟩
  /-- So over a whole history the store keeps its variables to their kinds, also where runs fail. -/
  history : ∀ (x : Executor) ops, (∀ op ∈ ops, op.IsKinded kinds uses) →
    x.store.variables.Fit kinds uses → (x.performAll ops).store.variables.Fit kinds uses

/-- Blocks that use the kinds that they need never fall back on account of a kind. -/
theorem trueToKinds (kinds : String → Kind) (uses : List Use) : TrueToKinds kinds uses where
  run block s actions t typed fit ended :=
    ⟨Instruction.execAll_eq_iff_course.1 ended, fun _ course => course.keptTo typed fit⟩
  collision x p b q actions typed stored ended := by
    obtain ⟨t, ran, left⟩ := (x.countHit b q).exists_ok_of_runAndCommit ended
    have start : (x.scene b q).context.variables.Fit kinds uses := stored
    obtain ⟨trace, course, kept⟩ := typed.exists_course start ran
    exact ⟨trace, t, course, kept, left⟩
  history x _ kinded stored := x.fit_performAll kinded stored

/-- A loop that divides by a variable without a value, assigns another one that decides on the next
    branch, and plays a sample whose index is nan; then a history in which it runs twice. -/
theorem trueToKinds_sample_without_index :
    let kinds : String → Kind := fun name => if name = "on" then .boolean else .number
    let block : List Instruction :=
      [.loop (.number (Binary64.ofInt 2))
        [.ifThen (.var "on")
          [.setVariable "n" (.binary .div (.var "n") (.var "m")),
            .setVariable "on" (.binary .lt (.var "n") (.ball .hitCount))],
          .playSample (.literal (.number .nan))]]
    let uses := Instruction.usesAll block
    let x : Executor :=
      ⟨{ «variables» := Std.ExtTreeMap.empty.insert "on" (.boolean true) },
        { source := fun _ => .zero }⟩
    let s := x.scene (resting "a") ⟨0, 0⟩
    let collision : Operation := .collide ⟨"p", block, none⟩ (resting "a") ⟨0, 0⟩
    Instruction.IsKinded kinds uses block ∧ s.context.variables.Fit kinds uses ∧
      (∃ actions t trace, Instruction.execAll block s = .ok actions t ∧
        Instruction.Course block s trace (.ok actions t) ∧
        trace.countP Instruction.hasNoIndex = 2 ∧ s.KeptTo kinds uses 2 t) ∧
      (x.performAll [collision, collision]).store.variables.Fit kinds uses := by
  intro kinds block uses x s collision
  have typed : Instruction.IsKinded kinds uses block := by
    refine Instruction.isKinded_usesAll (List.forall_mem_singleton.2 ?_)
    refine .loop (.literal _) (List.forall_mem_cons.2 ⟨.ifThen (.var "on") ?_, ?_⟩)
    · refine List.forall_mem_cons.2 ⟨.setVariable ?_, List.forall_mem_singleton.2 (.setVariable ?_)⟩
      · exact .binary (.var "n") (.var "m") rfl
      · exact .binary (.var "n") (.ball nofun) rfl
    · exact List.forall_mem_singleton.2 (.playSample (.literal _))
  have stored : x.store.variables.Fit kinds uses := by
    refine ⟨fun name v found => ?_, fun name _ other => ?_⟩
    · have only : "on" = name ∧ .boolean true = v := by
        simpa [x, Std.ExtTreeMap.getElem?_insert] using found
      obtain ⟨rfl, rfl⟩ := only
      rfl
    · have only : name = "on" := by
        by_contra h
        exact other (if_neg h)
      rw [only]
      simp [x]
  have ok : ((Instruction.execAll block).outcome s).isOk = true := by decide +kernel
  have drops : ((Instruction.execAll block).final s).engine.tally.droppedInstruction = 2 := by
    decide +kernel
  rw [Execution.outcome] at ok
  rw [Execution.final] at drops
  obtain ⟨actions, t, ended⟩ : ∃ actions t, Instruction.execAll block s = .ok actions t := by
    cases ended : Instruction.execAll block s with
    | ok actions t => exact ⟨actions, t, rfl⟩
    | error err t =>
      rw [ended] at ok
      cases ok
  rw [ended] at drops
  obtain ⟨⟨trace, course⟩, keeps⟩ :=
    (trueToKinds kinds uses).run block s actions t typed stored ended
  have kept := keeps trace course
  have twice : trace.countP Instruction.hasNoIndex = 2 := by
    have none : s.engine.tally.droppedInstruction = 0 := rfl
    have dropped := kept.droppedInstruction
    dsimp only at drops
    omega
  rw [twice] at kept
  refine ⟨typed, stored, ⟨actions, t, trace, ended, course, twice, kept⟩, ?_⟩
  refine (trueToKinds kinds uses).history x _ (List.forall_mem_cons.2 ⟨typed, ?_⟩) stored
  exact List.forall_mem_singleton.2 typed

end Carom
