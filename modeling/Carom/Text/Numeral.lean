import Carom.Binary64.Decimal
import Carom.Text.Digit

/-!
# Numerals

The decimal numerals of scripts and documents. A number is an optional sign,
digits with an optional fraction, or a fraction alone, and an optional exponent; a
count is an optional plus sign and digits. Which characters are digits is a
parameter: scripts take those of any writing system, documents only `0` to `9`.
-/

namespace Carom.Text

/-- The values of the digits in front of a text, and the text after them. -/
def takeDigits (digit : Char → Option Nat) : List Char → List Nat × List Char
  | [] => ([], [])
  | c :: cs => match digit c with
    | some d => let (ds, rest) := takeDigits digit cs; (d :: ds, rest)
    | none => ([], c :: cs)

/-- Whether there is a minus sign in front of a text, and the text after the sign, if
    there is one. -/
def takeSign : List Char → Bool × List Char
  | '+' :: cs => (false, cs)
  | '-' :: cs => (true, cs)
  | cs => (false, cs)

/-- As `takeSign`, of a text that may have no plus sign. -/
def takeMinus : List Char → Bool × List Char
  | '-' :: cs => (true, cs)
  | cs => (false, cs)

/-- A decimal `digits * 10 ^ exponent` with its sign. -/
structure Numeral where
  /-- Whether the sign is a minus. -/
  negative : Bool
  /-- All digits, those of the fraction included. -/
  digits : Nat
  /-- The power of ten that the last digit is worth. -/
  exponent : Int
  deriving DecidableEq

namespace Numeral

/-- The exponent of a numeral, written after its digits; zero if there is none. -/
def exponent? (digit : Char → Option Nat) (cs : List Char) : Option Int :=
  match cs with
  | [] => some 0
  | mark :: cs =>
    if mark == 'e' || mark == 'E' then
      let (negative, cs) := takeSign cs
      match takeDigits digit cs with
      | (d :: ds, []) => some (Binary64.signed negative (ofDigits (d :: ds)))
      | _ => none
    else none

/-- The fraction of a numeral and the text after it. -/
def takeFraction (digit : Char → Option Nat) : List Char → List Nat × List Char
  | '.' :: cs => takeDigits digit cs
  | cs => ([], cs)

/-- The numeral that a text is, if it is one. -/
def read? (digit : Char → Option Nat) (cs : List Char) : Option Numeral :=
  let (negative, cs) := takeSign cs
  let (whole, cs) := takeDigits digit cs
  let (fraction, cs) := takeFraction digit cs
  if whole.isEmpty && fraction.isEmpty then none
  else (exponent? digit cs).map fun e =>
    ⟨negative, ofDigits (whole ++ fraction), e - fraction.length⟩

/-- The number nearest to a numeral. -/
def toNumber (n : Numeral) : Binary64 := Binary64.ofDecimal n.negative n.digits n.exponent

end Numeral

/-- The digits of a count: an optional plus sign and at least one digit. -/
def countDigits? (cs : List Char) : Option (List Nat) :=
  let digits := match cs with
    | '+' :: rest => rest
    | other => other
  match takeDigits digit? digits with
  | (d :: ds, []) => some (d :: ds)
  | _ => none

end Carom.Text
