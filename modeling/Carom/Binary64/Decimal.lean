import Carom.Binary64.Rounding

/-!
# Decimals

The number nearest to a decimal `digits * 10 ^ exponent`, and the decimal of
fewest digits that reads back as a given number.

A finite number is a whole count of `10 ^ -1074` as well (`tenths`), since
`2 ^ -1074 = 5 ^ 1074 * 10 ^ -1074`. So the decimals near it are found on grids of
whole numbers: the multiples of a power of ten, from the coarsest grid to the
finest, which holds the number itself. On each grid the candidates are the two
neighbours, the nearer one first; the first that reads back is the answer. There is
always one (`readsAs_firstReading`).
-/

namespace Carom.Binary64

/-- The number nearest to `digits * 10 ^ exponent`, with the given sign. An
    exponent that leaves the range, whatever the digits, is not computed. -/
def ofDecimal (negative : Bool) (digits : Nat) (exponent : Int) : Binary64 :=
  if digits = 0 then finite negative 0 representable_zero
  else match exponent with
    | .ofNat e =>
      if 400 < e then infinite negative else ofRatio negative (digits * 10 ^ e * one) 1
    | .negSucc e =>
      if 400 + digits.log2 < e then finite negative 0 representable_zero
      else ofRatio negative (digits * one) (10 ^ (e + 1))

/-- How many `10 ^ -1074` a quantum is worth. -/
def quantumTenths : Nat := 5 ^ 1074

/-- How many `10 ^ -1074` a count of quanta is worth. -/
def tenths (quanta : Nat) : Nat := quanta * quantumTenths

/-- Whether a count of `10 ^ -1074` reads as the given count of quanta. -/
def readsAs (quanta scaled : Nat) : Bool := nearest scaled quantumTenths == quanta

/-- The first decimal that reads as `quanta` on the grids of the multiples of
    `10 ^ power`, `10 ^ (power - 1)`, …, `10 ^ 0` (all times `10 ^ -1074`), as its
    digits and the power of its grid. -/
def firstReading (quanta : Nat) : Nat → Nat × Nat
  | 0 => (tenths quanta, 0)
  | power + 1 =>
    let step := 10 ^ (power + 1)
    let below := tenths quanta / step
    let near := roundDiv (tenths quanta) step
    if readsAs quanta (near * step) then (near, power + 1)
    else if readsAs quanta (below * step) then (below, power + 1)
    else if readsAs quanta ((below + 1) * step) then (below + 1, power + 1)
    else firstReading quanta power

theorem quantumTenths_pos : 0 < quantumTenths := by
  unfold quantumTenths
  exact @Nat.pow_pos 5 1074 (by decide)

/-- The last grid holds the number itself. -/
theorem readsAs_tenths {quanta : Nat} (fits : Representable quanta) :
    readsAs quanta (tenths quanta) = true := by
  have e : tenths quanta / quantumTenths = quanta := Nat.mul_div_cancel _ quantumTenths_pos
  have h : nearest (tenths quanta) quantumTenths = tenths quanta / quantumTenths :=
    nearest_of_dvd quantumTenths_pos (Nat.dvd_mul_left _ _) (by rw [e]; exact fits.2)
  rw [e] at h
  simp [readsAs, h]

/-- The search ends on a decimal that reads back, from whatever grid it begins. -/
theorem readsAs_firstReading {quanta : Nat} (fits : Representable quanta) (power : Nat) :
    readsAs quanta ((firstReading quanta power).1 * 10 ^ (firstReading quanta power).2) = true := by
  induction power with
  | zero => simpa [firstReading] using readsAs_tenths fits
  | succ power ih =>
    simp only [firstReading]
    split
    · assumption
    split
    · assumption
    split
    · assumption
    exact ih

/-- The decimal digits of a natural number, the first one first. -/
def decimalDigits (n : Nat) : List Char := Nat.toDigits 10 n

/-- The digits of the shortest decimal that reads as `quanta`, without zeros at
    the end, and the decimal exponent of the first of them. -/
def shortest (quanta : Nat) : List Char × Int :=
  let reading := firstReading quanta ((decimalDigits (tenths quanta)).length - 1)
  let text := decimalDigits reading.1
  ((text.reverse.dropWhile (· == '0')).reverse, (reading.2 : Int) + text.length - 1 - 1074)

end Carom.Binary64
