import Carom.Proofs.Blocks
import Carom.Proofs.Collision

/-!
# Two runs in lockstep

A run is told by what it reads. If two contexts agree on that (`Context.Alike`), and the engines
draw the same numbers where the run draws any, then both runs take the same course: they give
the same or fail in the same way, assign the same values and record the same fallbacks
(`Instruction.lockstep_execAll`). What else the contexts and the engines hold is of no account.

What two engines have in common is left to a relation that recording and drawing keep
(`Engine.Parallel`). One such relation is that equally many fallbacks were recorded on both
(`Engine.SameGain`), for runs that draw nothing.
-/

namespace Carom

variable {ε σ α β : Type}

/-- Two results are the same, up to states that are related. -/
inductive Agree (R : σ → σ → Prop) : EStateM.Result ε σ α → EStateM.Result ε σ α → Prop
  | ok (a : α) {s t : σ} : R s t → Agree R (.ok a s) (.ok a t)
  | error (e : ε) {s t : σ} : R s t → Agree R (.error e s) (.error e t)

/-- Two runs that begin in related states end in related states, and in the same way. -/
def Lockstep (R : σ → σ → Prop) (e f : EStateM ε σ α) : Prop := ∀ s t, R s t → Agree R (e s) (f t)

namespace Lockstep

variable {R : σ → σ → Prop}

theorem pure (a : α) : Lockstep R (pure a : EStateM ε σ α) (Pure.pure a) :=
  fun _ _ h => .ok a h

theorem throw (e : ε) : Lockstep R (throw e : EStateM ε σ α) (MonadExcept.throw e) :=
  fun _ _ h => .error e h

/-- Runs in lockstep may be followed by runs in lockstep. -/
theorem bind {e f : EStateM ε σ α} {k l : α → EStateM ε σ β} (first : Lockstep R e f)
    (next : ∀ a, Lockstep R (k a) (l a)) : Lockstep R (e >>= k) (f >>= l) := by
  intro s t h
  have same := first s t h
  simp only [Bind.bind, EStateM.bind]
  generalize e s = r, f t = r' at same ⊢
  cases same with
  | ok a h => exact next a _ _ h
  | error err h => exact .error err h

end Lockstep

/-! ## Evaluation -/

/-- Two contexts that cannot be told apart by what is read. -/
structure Context.Alike (uses : List Use) (c d : Context) : Prop where
  value : ∀ name, .var name ∈ uses → c.variables[name]? = d.variables[name]?
  property : ∀ p, .ball p ∈ uses → p.read c = p.read d

/-- No property of the ball is kept among the variables. -/
theorem BallProperty.read_set (p : BallProperty) (c : Context) (name : String) (v : Value) :
    p.read (c.set name v) = p.read c := by
  unfold BallProperty.read
  dsimp only [Context.set]

/-- Contexts stay alike if a variable is set to the same value in both. -/
theorem Context.Alike.set {uses : List Use} {c d : Context} (h : c.Alike uses d) (name : String)
    (v : Value) : (c.set name v).Alike uses (d.set name v) where
  value other mem := by
    simp only [Context.set, Std.ExtTreeMap.getElem?_insert, h.value other mem]
  property p mem := by
    rw [p.read_set, p.read_set, h.property p mem]

/-- A relation of engines that is kept when the same fallback is recorded on both, and, if
    anything is to be drawn, when the same number is. -/
structure Engine.Parallel (uses : List Use) (R : Engine → Engine → Prop) : Prop where
  record : ∀ {g h}, R g h → ∀ m, R (g.record m) (h.record m)
  draw : .draw ∈ uses → ∀ {g h}, R g h → g.next = h.next ∧ R g.advance h.advance

section

variable {uses : List Use} {R : Engine → Engine → Prop} (parallel : Engine.Parallel uses R)

include parallel

theorem Evaluation.lockstep_fallBack (m : Mishap) (standIn : α) :
    Lockstep R (Evaluation.fallBack m standIn) (Evaluation.fallBack m standIn) :=
  fun _ _ h => .ok standIn (parallel.record h m)

/-- A draw gives the same number on both sides, if any is drawn. -/
theorem Evaluation.lockstep_draw (drawn : .draw ∈ uses) :
    Lockstep R Evaluation.draw Evaluation.draw := by
  intro g h related
  obtain ⟨same, related'⟩ := parallel.draw drawn related
  simp only [Evaluation.draw, same]
  exact .ok _ related'

/-- Equal operands have equal results, or are recorded on both sides. -/
theorem BinaryOp.lockstep_compute (op : BinaryOp) (a b : Value) :
    Lockstep R (op.compute a b) (op.compute a b) := by
  rw [BinaryOp.compute]
  split
  · exact .pure _
  · exact Evaluation.lockstep_fallBack parallel _ _

omit parallel in
/-- A property that is read leaves the engine alone, also where the reading fails. -/
theorem BallProperty.lockstep_read (c : Context) (p : BallProperty) :
    Lockstep R (p.read c) (p.read c) := by
  cases p with
  | hitCount =>
    unfold BallProperty.read
    dsimp only
    split
    · exact .pure _
    · exact .throw _
  | _ => exact .pure _

/-- An expression has the same value in contexts that are alike. -/
theorem Expression.lockstep_eval {c d : Context} (alike : c.Alike uses d) (e : Expression)
    (h : e.reads ⊆ uses) : Lockstep R (e.eval c) (e.eval d) := by
  induction e with
  | literal v => exact .pure v
  | var name =>
    rw [eval, eval, alike.value name (h List.mem_cons_self)]
    split
    · exact .pure _
    · exact Evaluation.lockstep_fallBack parallel _ _
  | binary op left right ihLeft ihRight =>
    obtain ⟨hLeft, hRight⟩ := List.append_subset.1 h
    exact (ihLeft hLeft).bind fun a => (ihRight hRight).bind fun b =>
      op.lockstep_compute parallel a b
  | ball p =>
    rw [eval, eval, alike.property p (h List.mem_cons_self)]
    exact p.lockstep_read d
  | random min max =>
    rw [eval, eval]
    -- The bounds are constants, so the range is empty on both sides or on none.
    split
    · exact (Evaluation.lockstep_draw parallel (h List.mem_cons_self)).bind fun _ => .pure _
    · exact Evaluation.lockstep_fallBack parallel _ _

end

/-! ## Execution -/

/-- Scenes whose contexts are alike and whose engines are related. -/
structure Scene.Alike (uses : List Use) (R : Engine → Engine → Prop) (s t : Scene) : Prop where
  context : s.context.Alike uses t.context
  engine : R s.engine t.engine

section

variable {uses : List Use} {R : Engine → Engine → Prop}

/-- Scenes stay alike under equal assignments. -/
theorem Execution.lockstep_assign (name : String) (v : Value) :
    Lockstep (Scene.Alike uses R) (Execution.assign name v) (Execution.assign name v) :=
  fun _ _ h => .ok [] ⟨h.context.set name v, h.engine⟩

/-- An instruction is dropped on both sides or on none. -/
theorem Execution.lockstep_skip (parallel : Engine.Parallel uses R) (m : Mishap) :
    Lockstep (Scene.Alike uses R) (Execution.skip m) (Execution.skip m) :=
  fun _ _ h => .ok [] ⟨h.context, parallel.record h.engine m⟩

/-- An evaluation in a run changes no context, so alike contexts stay alike. -/
theorem Execution.lockstep_evaluate (parallel : Engine.Parallel uses R) {e : Expression}
    (h : e.reads ⊆ uses) :
    Lockstep (Scene.Alike uses R) (Execution.evaluate e) (Execution.evaluate e) := by
  intro s t alike
  have same := e.lockstep_eval parallel alike.context h s.engine t.engine alike.engine
  simp only [Execution.evaluate]
  generalize e.eval s.context s.engine = r, e.eval t.context t.engine = r' at same ⊢
  cases same with
  | ok v related => exact .ok v ⟨alike.context, related⟩
  | error err related => exact .error err ⟨alike.context, related⟩

/-- To take the same course in scenes that are alike is kept when one run follows another. -/
theorem Execution.closed_lockstep (parallel : Engine.Parallel uses R) (names : List String) :
    Closed uses names fun e => Lockstep (Scene.Alike uses R) e e where
  pure a := .pure a
  bind first next := first.bind next
  evaluate h := lockstep_evaluate parallel h
  skip m := lockstep_skip parallel m
  -- It does not matter whether the variable is one of those that are read.
  assign v _ := lockstep_assign _ v

/-- A block takes the same course in scenes that are alike. -/
theorem Instruction.lockstep_execAll (parallel : Engine.Parallel uses R) (block : List Instruction)
    (h : Instruction.readsAll block ⊆ uses) :
    Lockstep (Scene.Alike uses R) (Instruction.execAll block) (Instruction.execAll block) :=
  closed_execAll (Execution.closed_lockstep parallel (targetsAll block)) block h
    (List.Subset.refl _)

end

/-! ## Collisions -/

/-- Two runs that gave the same, left the same values of what is read, and left engines that are
    related. -/
structure Ran.Alike (uses : List Use) (R : Engine → Engine → Prop) (r t : Ran) : Prop where
  result : r.result = t.result
  value : ∀ name, .var name ∈ uses →
    r.executor.store.variables[name]? = t.executor.store.variables[name]?
  engine : R r.executor.engine t.executor.engine

namespace Executor

variable {uses : List Use} {R : Engine → Engine → Prop} {x y : Executor}

/-- Runs in lockstep commit the same values, or nothing. -/
theorem alike_runAndCommit {e : Execution (List Action)} {c d : Context}
    (lockstep : Lockstep (Scene.Alike uses R) e e) (contexts : c.Alike uses d)
    (engines : R x.engine y.engine)
    (values : ∀ name, .var name ∈ uses → x.store.variables[name]? = y.store.variables[name]?) :
    (x.runAndCommit e c).Alike uses R (y.runAndCommit e d) := by
  have same := lockstep ⟨c, x.engine⟩ ⟨d, y.engine⟩ ⟨contexts, engines⟩
  simp only [runAndCommit, run]
  generalize e ⟨c, x.engine⟩ = r, e ⟨d, y.engine⟩ = r' at same ⊢
  cases same with
  | ok actions alike =>
    -- Other variables may differ, before the run and after it.
    exact ⟨rfl, alike.context.value, alike.engine⟩
  | error err alike => exact ⟨rfl, values, alike.engine⟩

/-- The contexts of a collision are alike if the stores have the same values of what is read
    and the same hits of the ball. -/
theorem alike_context {s t : Store} {b : Ball}
    (hits : s.ballHits b.identity = t.ballHits b.identity)
    (values : ∀ name, .var name ∈ uses → s.variables[name]? = t.variables[name]?) (q : Position) :
    (s.context b q).Alike uses (t.context b q) where
  value := values
  property p _ := by
    unfold BallProperty.read
    dsimp only [Store.context]
    rw [hits]

/-- A collision takes the same course on another executor, if the ball has hit as often there
    and what the program reads has the same values. -/
theorem alike_collide {p : Program} (parallel : Engine.Parallel uses R)
    (reads : Instruction.readsAll p.instructions ⊆ uses) {b : Ball} {q : Position}
    (hits : x.store.ballHits b.identity = y.store.ballHits b.identity)
    (values : ∀ name, .var name ∈ uses → x.store.variables[name]? = y.store.variables[name]?)
    (engines : R (x.countHit b q).engine (y.countHit b q).engine) :
    (x.collide p b q).Alike uses R (y.collide p b q) := by
  have counted : (x.store.countHit b.identity q).ballHits b.identity =
      (y.store.countHit b.identity q).ballHits b.identity := by
    rw [Store.ballHits_countHit, Store.ballHits_countHit, hits]
  exact alike_runAndCommit (Instruction.lockstep_execAll parallel p.instructions reads)
    (alike_context counted values q) engines values

end Executor

/-! ## Engines that draw nothing -/

/-- As many fallbacks of each kind were recorded between `g₀` and `g` as between `h₀` and `h`. -/
def Engine.SameGain (g₀ h₀ g h : Engine) : Prop :=
  ∀ f, g.tally.count f + h₀.tally.count f = h.tally.count f + g₀.tally.count f

theorem Engine.SameGain.refl (g₀ h₀ : Engine) : Engine.SameGain g₀ h₀ g₀ h₀ :=
  fun _ => Nat.add_comm _ _

/-- Where nothing is drawn, equal gains are kept by what is recorded. -/
theorem Engine.parallel_sameGain {uses : List Use} (steady : .draw ∉ uses) (g₀ h₀ : Engine) :
    Engine.Parallel uses (Engine.SameGain g₀ h₀) where
  record {g h} same m f := by
    have := same f
    rw [Engine.count_record, Engine.count_record]
    omega
  draw drawn := absurd drawn steady

end Carom
