import Carom.Context
import Carom.Engine
import Carom.Numeric

/-!
# Evaluation

The value of an expression in a context. Both operands of an operation are always
evaluated, the left one first. An operation that is not defined on its operands
gives *false*, a division by zero gives zero, a variable without a value reads as
zero and an empty random range gives its beginning; each is recorded by the
engine. The only thing that fails is to read a hit count that no number can hold.
-/

namespace Carom

/-- A hit count that is out of the range of numbers. -/
structure HitOverflow where
  /-- The count. -/
  hits : Int
  deriving DecidableEq

/-- Evaluation changes the engine, also where it fails. -/
abbrev Evaluation := EStateM HitOverflow Engine

namespace Evaluation

/-- Record a fallback and go on with its stand-in. -/
def fallBack {α : Type} (m : Mishap) (standIn : α) : Evaluation α := fun g =>
  .ok standIn (g.record m)

/-- Draw a random number. -/
def draw : Evaluation Binary64 := fun g => .ok g.next g.advance

end Evaluation

/-- The value that stands in for the result of an operation: zero for a quotient or a
    remainder, and *false* for all else. -/
def Mishap.standIn : Mishap → Value
  | zeroDivisor _ => .zero
  | _ => .boolean false

namespace BinaryOp

/-- An operation on two numbers: a value, or what is wrong with them. -/
def onNumbers (op : BinaryOp) (a b : Binary64) : Except Mishap Value :=
  match op with
  | add => .ok (.number (a + b))
  | sub => .ok (.number (a - b))
  | mul => .ok (.number (a * b))
  | div => match a.quotient? b with
    | some q => .ok (.number q)
    | none => .error (.zeroDivisor op)
  | mod => match a.remainder? b with
    | some r => .ok (.number r)
    | none => .error (.zeroDivisor op)
  | eq => .ok (.boolean (a.near b))
  | ne => .ok (.boolean (a.apart b))
  | lt => .ok (.boolean (decide (a < b)))
  | gt => .ok (.boolean (decide (b < a)))
  | le => .ok (.boolean (decide (a ≤ b)))
  | ge => .ok (.boolean (decide (b ≤ a)))
  | and => .error (.undefinedOnNumbers op)
  | or => .error (.undefinedOnNumbers op)

/-- An operation on two truth values: a value, or what is wrong with them. -/
def onBooleans (op : BinaryOp) (a b : Bool) : Except Mishap Value :=
  match op with
  | and => .ok (.boolean (a && b))
  | or => .ok (.boolean (a || b))
  | eq => .ok (.boolean (a == b))
  | ne => .ok (.boolean (a != b))
  | _ => .error (.undefinedOnBooleans op)

/-- An operation on two values: a value, or what is wrong with them. -/
def onValues (op : BinaryOp) : Value → Value → Except Mishap Value
  | .number a, .number b => op.onNumbers a b
  | .boolean a, .boolean b => op.onBooleans a b
  | a, b => .error (.undefinedBetween op a.kind b.kind)

/-- The result of an operation, or its stand-in. -/
def compute (op : BinaryOp) (a b : Value) : Evaluation Value :=
  match op.onValues a b with
  | .ok v => pure v
  | .error m => Evaluation.fallBack m m.standIn

end BinaryOp

/-- The value of a property of the ball. -/
def BallProperty.read (c : Context) : BallProperty → Evaluation Value
  | speed => pure (.number c.ballSpeed)
  | direction => pure (.direction c.ballDirection)
  | x => pure (.number c.ballX)
  | y => pure (.number c.ballY)
  | hitCount => match Binary64.ofInt? c.ballHits with
    | some n => pure (.number n)
    | none => throw ⟨c.ballHits⟩

/-- The value of an expression. -/
def Expression.eval (c : Context) : Expression → Evaluation Value
  | literal v => pure v
  | var name => match c.variables[name]? with
    | some v => pure v
    | none => Evaluation.fallBack (.unsetVariable name) .zero
  | binary op left right => do
    let a ← left.eval c
    let b ← right.eval c
    op.compute a b
  | ball property => property.read c
  | random min max =>
    if min < max then do
      let part ← Evaluation.draw
      pure (.number (Binary64.between min max part))
    else
      Evaluation.fallBack (.emptyRange min max) (.number min)

end Carom
