import Carom.Value

/-!
# Expressions

An expression is a constant, a variable, a binary operation, a property of the
ball that hits, or a random number.
-/

namespace Carom

/-- A binary operation. -/
inductive BinaryOp where
  | add
  | sub
  | mul
  | div
  | mod
  | eq
  | ne
  | lt
  | gt
  | le
  | ge
  | and
  | or
  deriving DecidableEq

namespace BinaryOp

/-- All operations. -/
def all : List BinaryOp := [add, sub, mul, div, mod, eq, ne, lt, gt, le, ge, and, or]

/-- The name of an operation, in documents and in messages. -/
def name : BinaryOp → String
  | add => "ADD"
  | sub => "SUB"
  | mul => "MUL"
  | div => "DIV"
  | mod => "MOD"
  | eq => "EQ"
  | ne => "NE"
  | lt => "LT"
  | gt => "GT"
  | le => "LE"
  | ge => "GE"
  | and => "AND"
  | or => "OR"

/-- The operation of a name. -/
def ofName? (w : String) : Option BinaryOp := all.find? fun op => op.name == w

theorem ofName?_name (op : BinaryOp) : ofName? op.name = some op := by cases op <;> decide

end BinaryOp

/-- A property of the ball that a script can read. -/
inductive BallProperty where
  | speed
  | direction
  | x
  | y
  | hitCount
  deriving DecidableEq

namespace BallProperty

/-- All properties. -/
def all : List BallProperty := [speed, direction, x, y, hitCount]

/-- The name of a property in documents. -/
def name : BallProperty → String
  | speed => "speed"
  | direction => "direction"
  | x => "x"
  | y => "y"
  | hitCount => "hit_count"

/-- The property of a name. -/
def ofName? (w : String) : Option BallProperty := all.find? fun p => p.name == w

theorem ofName?_name (p : BallProperty) : ofName? p.name = some p := by cases p <;> decide

end BallProperty

/-- An expression of the script language. -/
inductive Expression where
  /-- A constant. -/
  | literal (value : Value)
  /-- The value of a variable. -/
  | var (name : String)
  /-- An operation on two values. -/
  | binary (op : BinaryOp) (left right : Expression)
  /-- A property of the ball that hits. -/
  | ball (property : BallProperty)
  /-- A number drawn from the range that begins at `min` and ends before `max`. -/
  | random (min max : Binary64)
  deriving DecidableEq, BEq

/-- The constant expression of a number. -/
def Expression.number (n : Binary64) : Expression := .literal (.number n)

end Carom
