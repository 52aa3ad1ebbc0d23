import Carom.Binary64.Text
import Carom.Direction

/-!
# Values

A value of the script language is a number, a direction, a truth value or a
string. `=` tells any two values apart, while `==` compares numbers as the format
binary64 does: nan differs from itself and the two zeros are equal.
-/

namespace Carom

/-- What kind of value a value is. -/
inductive Kind where
  | number
  | direction
  | boolean
  | string
  deriving DecidableEq

/-- The name of a kind, in documents and in messages. -/
def Kind.name : Kind → String
  | number => "number"
  | direction => "direction"
  | boolean => "boolean"
  | string => "string"

/-- A value of the script language. -/
inductive Value where
  | number (n : Binary64)
  | direction (d : Direction)
  | boolean (b : Bool)
  | string (s : String)
  deriving DecidableEq, Inhabited, BEq

namespace Value

/-- The kind of a value. -/
def kind : Value → Kind
  | number _ => .number
  | direction _ => .direction
  | boolean _ => .boolean
  | string _ => .string

/-- Whether the value is the truth value *true*; there is no conversion. -/
def isTrue : Value → Bool
  | boolean b => b
  | _ => false

/-- The number zero, which stands in for a value that is missing. -/
def zero : Value := number Binary64.zero

/-- The text of a number on display: a whole number below `10 ^ 16` has no
    fraction and no sign of zero, any other is written in full. -/
def numberText (n : Binary64) : String :=
  match n with
  | .finite negative quanta _ =>
    if Binary64.one ∣ quanta ∧ quanta < 10 ^ 16 * Binary64.one then
      toString (Binary64.signed negative (quanta / Binary64.one))
    else
      n.text
  | _ => n.text

/-- The text of a value on display. -/
def text : Value → String
  | number n => numberText n
  | direction d => d.word
  | boolean true => "true"
  | boolean false => "false"
  | string s => s

end Value

end Carom
