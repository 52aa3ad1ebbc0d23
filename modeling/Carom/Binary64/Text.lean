import Carom.Binary64.Decimal

/-!
# The text of a number

A number is written with the fewest digits that read back as it
(`Carom.Binary64.Decimal`). A `Layout` says where the positional form ends and the
scientific one begins; `layout` is the one in use: `0.0001` and `9e+15` stand at
the two ends of the positional range, `1e-05` and `1e+16` next to them.
-/

namespace Carom.Binary64

/-- How the digits of a number are laid out. -/
structure Layout where
  /-- The least decimal exponent that is written positionally. -/
  leastPositional : Int
  /-- The least decimal exponent above the positional range. -/
  leastScientific : Int
  /-- The least number of digits of a written exponent. -/
  exponentWidth : Nat

/-- Positional from `10 ^ -4` up to, not including, `10 ^ 16`, and exponents of
    two digits at least. -/
def layout : Layout := ⟨-4, 16, 2⟩

/-- Zeros in front of a digit sequence, up to the given width. -/
def padLeft (width : Nat) (digits : List Char) : List Char :=
  List.replicate (width - digits.length) '0' ++ digits

/-- Digits around a point, at least one on either side; the first digit is worth
    `10 ^ exponent`. -/
def positional (digits : List Char) (exponent : Int) : List Char :=
  match exponent with
  | .ofNat e =>
    let whole := digits.take (e + 1)
    let fraction := digits.drop (e + 1)
    whole ++ List.replicate (e + 1 - whole.length) '0' ++ '.' ::
      (if fraction.isEmpty then ['0'] else fraction)
  | .negSucc e => '0' :: '.' :: List.replicate e '0' ++ digits

/-- One digit, the others after a point if there are any, and the exponent with
    its sign. -/
def scientific (width : Nat) (digits : List Char) (exponent : Int) : List Char :=
  let mantissa := match digits with
    | first :: second :: rest => first :: '.' :: second :: rest
    | other => other
  mantissa ++ 'e' :: (if exponent < 0 then '-' else '+') ::
    padLeft width (decimalDigits exponent.natAbs)

/-- The text of a count of quanta. -/
def magnitudeText (l : Layout) (quanta : Nat) : List Char :=
  if quanta = 0 then positional ['0'] 0
  else
    let (digits, exponent) := shortest quanta
    if l.leastPositional ≤ exponent ∧ exponent < l.leastScientific then
      positional digits exponent
    else
      scientific l.exponentWidth digits exponent

/-- The shortest text that reads back as the number. -/
def text : Binary64 → String
  | nan => "nan"
  | infinite false => "inf"
  | infinite true => "-inf"
  | finite false quanta _ => String.ofList (magnitudeText layout quanta)
  | finite true quanta _ => String.ofList ('-' :: magnitudeText layout quanta)

end Carom.Binary64
