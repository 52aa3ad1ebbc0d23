/-!
# Numbers

The numbers of scripts are those of the IEEE 754 format *binary64*. Every
finite one is a whole multiple of the least positive one, `2 ^ -1074`, which is
called the *quantum* here: a finite number is a sign and a count of quanta, so
sums, products and remainders are computed on natural numbers, exactly, and
rounded once (`Carom.Binary64.Rounding`, `Carom.Binary64.Arithmetic`).

A count fits the format (`Representable`) if it has at most 53 significant bits
and stays below `limit`. That is part of the type, so that two numbers are equal
(`=`) iff they are the same number of the format, with the two zeros apart and
nan equal to itself. The comparisons of the format itself (`==`, `<`, `≤`) see the
position on the number line only (`position?`): the two zeros agree, and nan is
neither equal to, less than nor greater than any number.
-/

-- Powers of numbers are those of the core library, also where an algebraic library that has
-- powers of its own is imported as well.
attribute [instance(high), default_instance 20000] instPowNat

namespace Carom

/-- The first count of quanta that is out of range, `2 ^ 1024` as a number. -/
def Binary64.limit : Nat := 2 ^ 2098

/-- The number of quanta in one. -/
def Binary64.one : Nat := 2 ^ 1074

/-- The place value of the last of the 53 significant bits of `n`. -/
def Binary64.unit (n : Nat) : Nat := 2 ^ (n.log2 - 52)

/-- A count of quanta fits the format if it is in range and a multiple of the
    place value of its last significant bit. -/
def Binary64.Representable (n : Nat) : Prop := n < limit ∧ unit n ∣ n

instance (n : Nat) : Decidable (Binary64.Representable n) :=
  inferInstanceAs (Decidable (_ ∧ _))

/-- A number of the format binary64. -/
inductive Binary64 where
  /-- The number that is none. -/
  | nan
  /-- Infinity of either sign. -/
  | infinite (negative : Bool)
  /-- A sign and a count of quanta that fits. -/
  | finite (negative : Bool) (quanta : Nat) (fits : Binary64.Representable quanta)
  deriving DecidableEq

namespace Binary64

theorem limit_pos : 0 < limit := by
  unfold limit
  exact Nat.two_pow_pos 2098

theorem representable_zero : Representable 0 := ⟨limit_pos, Nat.dvd_zero _⟩

/-- Zero, with the positive sign. -/
protected def zero : Binary64 := finite false 0 representable_zero

instance : Inhabited Binary64 := ⟨Binary64.zero⟩

/-- Not nan and not infinite. -/
def isFinite : Binary64 → Bool
  | finite .. => true
  | _ => false

/-- An integer from its sign and magnitude. -/
def signed (negative : Bool) (magnitude : Nat) : Int :=
  if negative then -(magnitude : Int) else magnitude

/-- The position on the number line, in quanta; infinity stands at the end of
    the range, and nan nowhere. -/
def position? : Binary64 → Option Int
  | nan => none
  | infinite negative => some (signed negative limit)
  | finite negative quanta _ => some (signed negative quanta)

/-- Whether both numbers have a position and `r` holds of the two. -/
def compareWith (r : Int → Int → Bool) (a b : Binary64) : Bool :=
  match a.position?, b.position? with
  | some x, some y => r x y
  | _, _ => false

/-- Equality of the format: nan differs from itself, and the zeros are equal. -/
instance : BEq Binary64 := ⟨compareWith (· == ·)⟩

instance : LT Binary64 := ⟨fun a b => compareWith (fun x y => decide (x < y)) a b⟩

instance : LE Binary64 := ⟨fun a b => compareWith (fun x y => decide (x ≤ y)) a b⟩

instance (a b : Binary64) : Decidable (a < b) := inferInstanceAs (Decidable (_ = true))

instance (a b : Binary64) : Decidable (a ≤ b) := inferInstanceAs (Decidable (_ = true))

/-- The whole part, toward zero; none for nan and infinity. -/
def truncate? : Binary64 → Option Int
  | finite negative quanta _ => some (signed negative (quanta / one))
  | _ => none

end Binary64

end Carom
