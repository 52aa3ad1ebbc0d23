import Carom.Ball
import Carom.Context

/-!
# The store

What outlives a collision: the hits of each ball and of each square, and the
variables. A ball or a square without a count has been hit zero times. A context is
a copy of what the store holds at the time (`Store.context`); its variables replace
those of the store, all of them, when it is committed (`Store.commit`).
-/

namespace Carom

/-- Hit counts and variables. -/
structure Store where
  /-- The variables. -/
  «variables» : Variables := ∅
  /-- The hits of balls by identity. -/
  ballCounts : Std.ExtTreeMap String Int := ∅
  /-- The hits of squares by position. -/
  squareCounts : Std.ExtTreeMap Position Int := ∅

namespace Store

/-- How often a ball has hit. -/
def ballHits (s : Store) (identity : String) : Int := s.ballCounts.getD identity 0

/-- How often a square has been hit. -/
def squareHits (s : Store) (place : Position) : Int := s.squareCounts.getD place 0

/-- The store with one more hit of a ball. -/
def countBall (s : Store) (identity : String) : Store :=
  { s with ballCounts := s.ballCounts.insert identity (s.ballHits identity + 1) }

/-- The store with one more hit of a square. -/
def countSquare (s : Store) (place : Position) : Store :=
  { s with squareCounts := s.squareCounts.insert place (s.squareHits place + 1) }

/-- The store with one more hit of a ball on a square. -/
def countHit (s : Store) (identity : String) (place : Position) : Store :=
  (s.countBall identity).countSquare place

/-- The world for a ball on a square. -/
def context (s : Store) (b : Ball) (place : Position) : Context where
  «variables» := s.variables
  ballHits := s.ballHits b.identity
  squareHits := s.squareHits place
  ballX := b.x
  ballY := b.y
  ballSpeed := b.speed
  ballDirection := b.direction
  square := place

/-- The store with the variables of a context. -/
def commit (s : Store) (c : Context) : Store := { s with «variables» := c.variables }

/-- The store in which a square has not been hit. -/
def resetHits (s : Store) (place : Position) : Store :=
  { s with squareCounts := s.squareCounts.erase place }

/-- The store in which nothing has been hit. -/
def resetHitCounts (s : Store) : Store := { s with ballCounts := ∅, squareCounts := ∅ }

/-- The store without variables. -/
def resetVariables (s : Store) : Store := { s with «variables» := ∅ }

/-- The store in which nothing has happened. -/
def resetAll (s : Store) : Store := s.resetHitCounts.resetVariables

/-! ## What the operations do to the counts -/

variable (s : Store) (b c : String) (p q : Position)

@[simp] theorem ballHits_countBall :
    (s.countBall b).ballHits c = s.ballHits c + if b = c then 1 else 0 := by
  by_cases h : b = c <;> simp [ballHits, countBall, Std.ExtTreeMap.getD_insert, h]

@[simp] theorem squareHits_countBall : (s.countBall b).squareHits q = s.squareHits q := rfl

@[simp] theorem ballHits_countSquare : (s.countSquare p).ballHits c = s.ballHits c := rfl

@[simp] theorem squareHits_countSquare :
    (s.countSquare p).squareHits q = s.squareHits q + if p = q then 1 else 0 := by
  by_cases h : p = q <;> simp [squareHits, countSquare, Std.ExtTreeMap.getD_insert, h]

@[simp] theorem ballHits_resetHits : (s.resetHits p).ballHits c = s.ballHits c := rfl

@[simp] theorem squareHits_resetHits :
    (s.resetHits p).squareHits q = if p = q then 0 else s.squareHits q := by
  by_cases h : p = q <;> simp [squareHits, resetHits, Std.ExtTreeMap.getD_erase, h]

@[simp] theorem ballHits_resetHitCounts : s.resetHitCounts.ballHits c = 0 := rfl

@[simp] theorem squareHits_resetHitCounts : s.resetHitCounts.squareHits q = 0 := rfl

@[simp] theorem ballHits_commit (ctx : Context) : (s.commit ctx).ballHits c = s.ballHits c := rfl

@[simp] theorem squareHits_commit (ctx : Context) :
    (s.commit ctx).squareHits q = s.squareHits q := rfl

end Store

end Carom
