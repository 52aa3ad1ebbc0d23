import Std.Data.ExtTreeMap
import Carom.Value

/-!
# Contexts

What a run sees of the world: the variables, which it may write, and the ball, the
square and their hit counts, which it may not.
-/

namespace Carom

/-- The variables that have a value. -/
abbrev Variables := Std.ExtTreeMap String Value

/-- The place of a square on the grid. -/
structure Position where
  x : Int
  y : Int
  deriving DecidableEq, Inhabited

namespace Position

/-- Positions are ordered by the first coordinate, then by the second one. -/
instance : Ord Position := ⟨compareLex (compareOn Position.x) (compareOn Position.y)⟩

instance : Std.TransOrd Position :=
  inferInstanceAs (Std.TransCmp (compareLex (compareOn Position.x) (compareOn Position.y)))

instance : Std.LawfulEqOrd Position where
  eq_of_compare {a b} h := by
    have both : compare a.x b.x = .eq ∧ compare a.y b.y = .eq := compareLex_eq_eq.1 h
    cases a
    cases b
    simp only [mk.injEq]
    exact ⟨Std.LawfulEqCmp.eq_of_compare both.1, Std.LawfulEqCmp.eq_of_compare both.2⟩

end Position

/-- The world as a run sees it. -/
structure Context where
  /-- The variables. -/
  «variables» : Variables := ∅
  /-- The hits of the ball, this one included. -/
  ballHits : Int := 0
  /-- The hits of the square, this one included. -/
  squareHits : Int := 0
  /-- The horizontal coordinate of the ball. -/
  ballX : Binary64 := .zero
  /-- The vertical coordinate of the ball. -/
  ballY : Binary64 := .zero
  /-- The speed of the ball. -/
  ballSpeed : Binary64 := .zero
  /-- The direction of travel of the ball. -/
  ballDirection : Direction := .right
  /-- The place of the square. -/
  square : Position := ⟨0, 0⟩

/-- The context with a variable set. -/
def Context.set (c : Context) (name : String) (v : Value) : Context :=
  { c with «variables» := c.variables.insert name v }

end Carom
