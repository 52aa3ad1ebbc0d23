/-!
# Directions

The eight directions in which a ball can travel, each with the word that names it
in scripts and documents.
-/

namespace Carom

/-- A direction of travel. -/
inductive Direction where
  | up
  | down
  | left
  | right
  | upLeft
  | upRight
  | downLeft
  | downRight
  deriving DecidableEq, Inhabited

namespace Direction

/-- All directions, in the order in which they are listed to a user. -/
def all : List Direction := [up, down, left, right, upLeft, upRight, downLeft, downRight]

/-- The word for a direction. -/
def word : Direction → String
  | up => "up"
  | down => "down"
  | left => "left"
  | right => "right"
  | upLeft => "up-left"
  | upRight => "up-right"
  | downLeft => "down-left"
  | downRight => "down-right"

/-- The direction that a word names, exactly as it is spelled. -/
def ofWord? (w : String) : Option Direction := all.find? fun d => d.word == w

/-- The direction turned by half a circle. -/
def reversed : Direction → Direction
  | up => down
  | down => up
  | left => right
  | right => left
  | upLeft => downRight
  | upRight => downLeft
  | downLeft => upRight
  | downRight => upLeft

/-- To turn round twice is to go on. -/
theorem reversed_reversed (d : Direction) : d.reversed.reversed = d := by cases d <;> rfl

/-- A direction is known by its word. -/
theorem ofWord?_word (d : Direction) : ofWord? d.word = some d := by cases d <;> decide

end Direction

end Carom
