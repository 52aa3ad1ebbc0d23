import Carom.Proofs.Collision
import Mathlib.Data.List.DropRight

/-!
# Histories

A history is a list of operations, performed one after the other on one executor
(`Executor.performAll`). What it does to the hits is told by the operations alone,
whatever the programs in it do and whether their runs fail.

* `ballHits_after`, `squareHits_after`: what one operation does to one count.
* `performAll_of_step`: from that, what a history does to a count of any kind.
* `countsCollisions`: each count is what it was in the beginning, or zero if it was ever
  forgotten, plus the collisions since then.
-/

namespace Carom

namespace Operation

/-- The ball and the place of a collision. A script that cannot be read lets nothing collide. -/
def collision? : Operation → Option (String × Position)
  | collide _ b place => some (b.identity, place)
  | collideSquare _ b place => some (b.identity, place)
  | collideScript source b place =>
    match Script.read source with
    | .ok _ => some (b.identity, place)
    | .error _ => none
  | _ => none

/-- Whether an operation is a collision of that ball. -/
def collidesBall (b : String) (op : Operation) : Bool := op.collision?.any fun c => c.1 == b

/-- Whether an operation is a collision with the square at that place. -/
def collidesSquare (q : Position) (op : Operation) : Bool := op.collision?.any fun c => c.2 == q

/-- Whether an operation counts a hit of that ball without a collision. -/
def countsBall (b : String) : Operation → Bool
  | countBall c => c == b
  | _ => false

/-- Whether an operation counts a hit of that square without a collision. -/
def countsSquare (q : Position) : Operation → Bool
  | countSquare p => p == q
  | _ => false

/-- Whether an operation forgets the hits of the balls. -/
def forgetsBalls : Operation → Bool
  | resetHitCounts => true
  | resetAll => true
  | _ => false

/-- Whether an operation forgets the hits of that square. -/
def forgetsSquare (q : Position) : Operation → Bool
  | resetHits p => p == q
  | resetHitCounts => true
  | resetAll => true
  | _ => false

/-- The store with the hits that an operation counts, or without those that it forgets. -/
def onHits (s : Store) : Operation → Store
  | countBall b => s.countBall b
  | countSquare q => s.countSquare q
  | resetHits q => s.resetHits q
  | resetHitCounts => s.resetHitCounts
  | resetAll => s.resetHitCounts
  | op =>
    match op.collision? with
    | some (b, q) => s.countHit b q
    | none => s

/-- The end of a history after the last operation that forgets. -/
def since (forgets : Operation → Bool) (ops : List Operation) : List Operation :=
  ops.rtakeWhile fun op => !forgets op

@[simp] theorem since_nil (forgets : Operation → Bool) : since forgets [] = [] := rfl

/-- Nothing counts behind an operation that forgets. -/
theorem since_append_of_forgets {forgets : Operation → Bool} {op : Operation}
    (h : forgets op = true) (ops : List Operation) : since forgets (ops ++ [op]) = [] :=
  List.rtakeWhile_concat_neg _ _ _ (by simp [h])

/-- An operation that does not forget comes on top of what counts already. -/
theorem since_append_of_not_forgets {forgets : Operation → Bool} {op : Operation}
    (h : forgets op = false) (ops : List Operation) :
    since forgets (ops ++ [op]) = since forgets ops ++ [op] :=
  List.rtakeWhile_concat_pos _ _ _ (by simp [h])

end Operation

namespace Executor

open Operation

/-- The executor after an operation. -/
def after (x : Executor) (op : Operation) : Executor := (x.perform op).executor

/-- The executor after a history. -/
def performAll (x : Executor) (ops : List Operation) : Executor := ops.foldl after x

@[simp] theorem performAll_nil (x : Executor) : x.performAll [] = x := rfl

/-- A history may be cut in two and performed in turn. -/
theorem performAll_append (x : Executor) (ops more : List Operation) :
    x.performAll (ops ++ more) = (x.performAll ops).performAll more :=
  List.foldl_append

/-- The last operation of a history finds what all others have left. -/
theorem performAll_concat (x : Executor) (ops : List Operation) (op : Operation) :
    x.performAll (ops ++ [op]) = (x.performAll ops).after op :=
  x.performAll_append ops [op]

/-! ## One operation -/

/-- A script that cannot be read leaves the hits alone, and one that can is a collision. -/
theorem sameHits_after_collideScript (x : Executor) (source : String) (b : Ball) (q : Position) :
    (x.after (.collideScript source b q)).store.SameHits
      (onHits x.store (.collideScript source b q)) := by
  simp only [after, perform, Executor.collideScript, Store.collideScript, onHits, collision?]
  cases Script.read source with
  | error e => exact Store.SameHits.refl _
  | ok p => exact sameHits_collide ⟨x.store, _⟩ p b q

/-- No operation changes the hits in any way but the one that is due to its kind. -/
theorem sameHits_after (x : Executor) (op : Operation) :
    (x.after op).store.SameHits (op.onHits x.store) := by
  -- A run, an evaluation and an execution count no hit, whatever becomes of them; what is left are
  -- the operations on the counts themselves.
  cases op with
  | collide p b q => exact x.sameHits_collide p b q
  | collideSquare s b q => exact x.sameHits_collideSquare s b q
  | collideScript source b q => exact x.sameHits_after_collideScript source b q
  | execute p c => exact x.sameHits_runAndCommit _ c
  | run block c =>
    have : (x.after (.run block c)).store = x.store := x.store_run _ c
    rw [this]
    exact Store.SameHits.refl _
  | evaluate e c =>
    simp only [after, perform, evaluate]
    cases e.eval c x.engine <;> exact Store.SameHits.refl _
  | _ => exact ⟨fun _ => rfl, fun _ => rfl⟩

/-- What an operation does to the hits of a ball. -/
theorem ballHits_after (x : Executor) (op : Operation) (b : String) :
    (x.after op).store.ballHits b =
      if op.forgetsBalls then 0
      else x.store.ballHits b + (if op.collidesBall b then 1 else 0) +
        if op.countsBall b then 1 else 0 := by
  rw [(x.sameHits_after op).1 b]
  cases op with
  | collideScript source c q =>
    cases read : Script.read source <;>
      simp [onHits, forgetsBalls, collidesBall, countsBall, collision?, read,
        Store.ballHits_countHit]
  | _ =>
    simp [onHits, forgetsBalls, collidesBall, countsBall, collision?, Store.ballHits_countHit]

/-- What an operation does to the hits of a square. -/
theorem squareHits_after (x : Executor) (op : Operation) (q : Position) :
    (x.after op).store.squareHits q =
      if op.forgetsSquare q then 0
      else x.store.squareHits q + (if op.collidesSquare q then 1 else 0) +
        if op.countsSquare q then 1 else 0 := by
  rw [(x.sameHits_after op).2 q]
  cases op with
  | collideScript source c p =>
    cases read : Script.read source <;>
      simp [onHits, forgetsSquare, collidesSquare, countsSquare, collision?, read,
        Store.squareHits_countHit]
  | _ =>
    simp [onHits, forgetsSquare, collidesSquare, countsSquare, collision?,
      Store.squareHits_countHit]

/-! ## Whole histories -/

/-- A count that some operations forget and others raise by one, over a history. -/
theorem performAll_of_step (count : Store → Int) {forgets collides counts : Operation → Bool}
    (step : ∀ (x : Executor) (op : Operation), count (x.after op).store =
      if forgets op then 0
      else count x.store + (if collides op then 1 else 0) + if counts op then 1 else 0)
    (x : Executor) (ops : List Operation) :
    count (x.performAll ops).store =
      (if ops.any forgets then 0 else count x.store) + (since forgets ops).countP collides +
        (since forgets ops).countP counts := by
  -- From the end, since it is the last operation that decides where the counting begins.
  induction ops using List.reverseRecOn with
  | nil => simp
  | append_singleton ops op ih =>
    rw [performAll_concat, step]
    cases h : forgets op with
    | true => simp [since_append_of_forgets h, h]
    | false =>
      rw [if_neg Bool.false_ne_true, ih, since_append_of_not_forgets h]
      simp only [List.any_append, List.any_cons, List.any_nil, h, Bool.or_false,
        List.countP_append, List.countP_singleton]
      split_ifs <;> omega

/-- The hits of a ball after a history. -/
theorem ballHits_performAll (x : Executor) (ops : List Operation) (b : String) :
    (x.performAll ops).store.ballHits b =
      (if ops.any forgetsBalls then 0 else x.store.ballHits b) +
        (since forgetsBalls ops).countP (collidesBall b) +
        (since forgetsBalls ops).countP (countsBall b) :=
  performAll_of_step (fun s => s.ballHits b) (fun x op => x.ballHits_after op b) x ops

/-- The hits of a square after a history. -/
theorem squareHits_performAll (x : Executor) (ops : List Operation) (q : Position) :
    (x.performAll ops).store.squareHits q =
      (if ops.any (forgetsSquare q) then 0 else x.store.squareHits q) +
        (since (forgetsSquare q) ops).countP (collidesSquare q) +
        (since (forgetsSquare q) ops).countP (countsSquare q) :=
  performAll_of_step (fun s => s.squareHits q) (fun x op => x.squareHits_after op q) x ops

/-- A collision is one hit of its ball: no collision forgets, and none is a hit that is counted
    without a collision. -/
theorem ballHits_after_of_collision (x : Executor) {op : Operation} {b : String} {q : Position}
    (h : op.collision? = some (b, q)) (c : String) :
    (x.after op).store.ballHits c = x.store.ballHits c + if b = c then 1 else 0 := by
  rw [ballHits_after]
  cases op <;> simp_all [collision?, forgetsBalls, collidesBall, countsBall]

/-- And one hit of its square. -/
theorem squareHits_after_of_collision (x : Executor) {op : Operation} {b : String} {q : Position}
    (h : op.collision? = some (b, q)) (p : Position) :
    (x.after op).store.squareHits p = x.store.squareHits p + if q = p then 1 else 0 := by
  rw [squareHits_after]
  cases op <;> simp_all [collision?, forgetsSquare, collidesSquare, countsSquare]

/-- What the hits are after a history `ops` of an executor that was `x` in the beginning,
    and what becomes of them with the next operation. -/
structure CountsCollisions (x : Executor) (ops : List Operation) : Prop where
  /-- The collisions of a ball since its hits were forgotten; hits that are counted without
      a collision come on top. -/
  balls : ∀ b, (x.performAll ops).store.ballHits b =
    (if ops.any forgetsBalls then 0 else x.store.ballHits b) +
      (since forgetsBalls ops).countP (collidesBall b) +
      (since forgetsBalls ops).countP (countsBall b)
  /-- The same for a square. -/
  squares : ∀ q, (x.performAll ops).store.squareHits q =
    (if ops.any (forgetsSquare q) then 0 else x.store.squareHits q) +
      (since (forgetsSquare q) ops).countP (collidesSquare q) +
      (since (forgetsSquare q) ops).countP (countsSquare q)
  /-- Only what forgets the hits of the balls lowers one of them. -/
  balls_le : ∀ op b, op.forgetsBalls = false →
    (x.performAll ops).store.ballHits b ≤ ((x.performAll ops).after op).store.ballHits b
  /-- Only what forgets the hits of a square lowers them. -/
  squares_le : ∀ op q, op.forgetsSquare q = false →
    (x.performAll ops).store.squareHits q ≤ ((x.performAll ops).after op).store.squareHits q
  /-- A collision is one hit of its ball and of no other. -/
  collision_balls : ∀ op b q, op.collision? = some (b, q) → ∀ c,
    ((x.performAll ops).after op).store.ballHits c =
      (x.performAll ops).store.ballHits c + if b = c then 1 else 0
  /-- A collision is one hit of its square and of no other. -/
  collision_squares : ∀ op b q, op.collision? = some (b, q) → ∀ p,
    ((x.performAll ops).after op).store.squareHits p =
      (x.performAll ops).store.squareHits p + if q = p then 1 else 0
  balls_nonneg : (∀ b, 0 ≤ x.store.ballHits b) → ∀ b, 0 ≤ (x.performAll ops).store.ballHits b
  squares_nonneg :
    (∀ q, 0 ≤ x.store.squareHits q) → ∀ q, 0 ≤ (x.performAll ops).store.squareHits q

/-- The hits are the collisions, in every history. -/
theorem countsCollisions (x : Executor) (ops : List Operation) : x.CountsCollisions ops where
  balls := x.ballHits_performAll ops
  squares := x.squareHits_performAll ops
  balls_le op b kept := by
    rw [ballHits_after, kept, if_neg Bool.false_ne_true]
    split_ifs <;> omega
  squares_le op q kept := by
    rw [squareHits_after, kept, if_neg Bool.false_ne_true]
    split_ifs <;> omega
  collision_balls op b q h := ballHits_after_of_collision _ h
  collision_squares op b q h := squareHits_after_of_collision _ h
  balls_nonneg initial b := by
    rw [ballHits_performAll]
    have := initial b
    split_ifs <;> omega
  squares_nonneg initial q := by
    rw [squareHits_performAll]
    have := initial q
    split_ifs <;> omega

end Executor

end Carom
