import Carom.Operation
import Carom.Proofs.Frame

/-!
# What a collision does to the store

Whatever a run does and however it ends, the hits that are counted stay what they were
before it; a collision counts one hit of its ball and one of its square, and that is all.
-/

namespace Carom

namespace Store

/-- The same hits are counted in two stores. -/
def SameHits (s t : Store) : Prop :=
  (∀ b, s.ballHits b = t.ballHits b) ∧ ∀ q, s.squareHits q = t.squareHits q

theorem SameHits.refl (s : Store) : s.SameHits s := ⟨fun _ => rfl, fun _ => rfl⟩

/-- A hit of a ball and a square counts once for the ball. -/
theorem ballHits_countHit (s : Store) (b c : String) (q : Position) :
    (s.countHit b q).ballHits c = s.ballHits c + if b = c then 1 else 0 := by
  rw [countHit, ballHits_countSquare, ballHits_countBall]

/-- And once for the square. -/
theorem squareHits_countHit (s : Store) (b : String) (p q : Position) :
    (s.countHit b p).squareHits q = s.squareHits q + if p = q then 1 else 0 := by
  rw [countHit, squareHits_countSquare, squareHits_countBall]

/-- A store that differs from another one by one more hit of a ball and one more hit of a
    square, and by nothing else. -/
structure OneHit (s t : Store) (b : String) (q : Position) : Prop where
  «variables» : t.variables = s.variables
  balls : ∀ c, t.ballHits c = s.ballHits c + if b = c then 1 else 0
  squares : ∀ p, t.squareHits p = s.squareHits p + if q = p then 1 else 0

theorem oneHit_countHit (s : Store) (b : String) (q : Position) :
    s.OneHit (s.countHit b q) b q where
  «variables» := rfl
  balls c := s.ballHits_countHit b c q
  squares p := s.squareHits_countHit b q p

/-- The hit of the ball counts before the context is taken. -/
theorem ballHits_context_countHit (s : Store) (b : Ball) (q : Position) :
    ((s.countHit b.identity q).context b q).ballHits = s.ballHits b.identity + 1 := by
  rw [context, ballHits_countHit, if_pos rfl]

end Store

namespace Executor

variable (x : Executor) (e : Execution (List Action)) (c : Context)

/-- A run by itself leaves the store alone. -/
@[simp] theorem store_run : (x.run e c).executor.store = x.store := by
  rw [run]
  cases e ⟨c, x.engine⟩ <;> rfl

/-- A run that ends well commits the variables that it leaves. -/
theorem store_runAndCommit_of_ok {actions : List Action} (h : (x.run e c).result = .ok actions) :
    (x.runAndCommit e c).executor.store = x.store.commit (x.run e c).context := by
  simp only [runAndCommit, h, store_run]

/-- A run that fails commits nothing. -/
theorem store_runAndCommit_of_error {err : HitOverflow} (h : (x.run e c).result = .error err) :
    (x.runAndCommit e c).executor.store = x.store := by
  simp only [runAndCommit, h, store_run]

variable {e c} in
/-- A run that is committed and does not fail ends well, and leaves its variables and its engine. -/
theorem exists_ok_of_runAndCommit {actions : List Action}
    (ended : (x.runAndCommit e c).result = .ok actions) :
    ∃ t, e ⟨c, x.engine⟩ = .ok actions t ∧
      (x.runAndCommit e c).executor = ⟨x.store.commit t.context, t.engine⟩ := by
  simp only [runAndCommit, run] at ended ⊢
  cases ran : e ⟨c, x.engine⟩ with
  | ok done t =>
    rw [ran] at ended
    cases ended
    exact ⟨t, rfl, rfl⟩
  | error err t =>
    rw [ran] at ended
    cases ended

/-- A run changes nothing in the store but the variables. -/
theorem store_runAndCommit : (x.runAndCommit e c).executor.store =
    { x.store with «variables» := (x.runAndCommit e c).executor.store.variables } := by
  cases h : (x.run e c).result with
  | ok actions =>
    rw [store_runAndCommit_of_ok x e c h]
    rfl
  | error err => rw [store_runAndCommit_of_error x e c h]

variable {x e c} in
/-- A variable that is not written keeps its value in the store, if the context has the value. -/
theorem value?_runAndCommit {names : Scene → List String} {name : String}
    (writes : e.WritesOnly names) (unwritten : name ∉ names ⟨c, x.engine⟩)
    (same : c.variables[name]? = x.store.variables[name]?) :
    (x.runAndCommit e c).executor.store.variables[name]? = x.store.variables[name]? := by
  have kept := writes ⟨c, x.engine⟩ name unwritten
  simp only [Scene.value?, Execution.final] at kept
  rw [runAndCommit, run]
  cases ran : e ⟨c, x.engine⟩ with
  | ok actions s =>
    -- All variables of the context replace those of the store.
    rw [ran] at kept
    exact kept.trans same
  | error err s => rfl

/-- Whether it is committed or not, a run does not change the hits. -/
theorem sameHits_runAndCommit : (x.runAndCommit e c).executor.store.SameHits x.store := by
  rw [store_runAndCommit]
  exact ⟨fun _ => rfl, fun _ => rfl⟩

/-- A collision counts its hit, and its program adds none. -/
theorem sameHits_collide (p : Program) (b : Ball) (q : Position) :
    (x.collide p b q).executor.store.SameHits (x.store.countHit b.identity q) :=
  sameHits_runAndCommit _ _ _

/-- It does not matter for the hits whether the square runs a program or steps. -/
theorem sameHits_collideSquare (s : Square) (b : Ball) (q : Position) :
    (x.collideSquare s b q).executor.store.SameHits (x.store.countHit b.identity q) := by
  rw [collideSquare]
  split
  · exact x.sameHits_collide _ b q
  · -- The steps run after the hit is counted, and commit nothing.
    rw [store_run]
    exact Store.SameHits.refl _

/-- A run that leaves the context and the engine as they are commits what is there already. -/
theorem runAndCommit_of_unchanged {actions : List Action}
    (h : e ⟨c, x.engine⟩ = .ok actions ⟨c, x.engine⟩) (same : c.variables = x.store.variables) :
    x.runAndCommit e c = ⟨.ok actions, c, x⟩ := by
  have run : x.run e c = ⟨.ok actions, c, x⟩ := by rw [Executor.run, h]
  simp only [runAndCommit, run, Store.commit, same]

/-- A collision with a program that changes nothing is a hit and nothing else. -/
theorem collide_of_unchanged {p : Program} {b : Ball} {q : Position} {actions : List Action}
    (h : ∀ g, p.run ⟨(x.store.countHit b.identity q).context b q, g⟩ =
      .ok actions ⟨(x.store.countHit b.identity q).context b q, g⟩) :
    x.collide p b q =
      ⟨.ok actions, (x.store.countHit b.identity q).context b q, x.countHit b q⟩ :=
  runAndCommit_of_unchanged _ _ _ (h _) rfl

end Executor

end Carom
