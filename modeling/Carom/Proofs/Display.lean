import Carom.Proofs.Binary64.Order
import Carom.Proofs.Binary64.Text
import Carom.Proofs.Document.Scalar
import Carom.Value

/-!
# Numbers on display

A number is displayed as an integer if it is whole and not too large, and else with all the digits
that it takes to read it back. Both are numerals of scripts that read as the number
(`exists_read?_numberText`), but for the sign of zero, which is not displayed; the names of nan and
the infinities are no numerals. So finite numbers look the same iff they are equal
(`numberText_eq_iff`).
-/

namespace Carom

open Text

/-! ## Integers -/

namespace Text.Numeral

variable {digit : Char → Option Nat} (knows : KnowsDigits digit)

include knows

/-- Digits alone are a numeral. -/
theorem read?_of_plain {cs : List Char} (plain : Plain cs) (ne : cs ≠ []) :
    read? digit cs = some ⟨false, Nat.ofDigitChars 10 cs 0, 0⟩ := by
  have unsigned := takeSign_append_of_plain plain ne []
  rw [List.append_nil] at unsigned
  have digits := takeDigits_of_plain knows plain
  have none : exponent? digit [] = some 0 := rfl
  rw [read?_of_parts unsigned digits (by simpa using ne) rfl none, List.append_nil,
    ofDigits_map_digitValue]
  rfl

/-- An integer is read from its digits. -/
theorem read?_toString (z : Int) :
    read? digit (toString z).toList = some ⟨decide (z < 0), z.natAbs, 0⟩ := by
  have digits := read?_of_plain knows (plain_toDigits z.natAbs) Nat.toDigits_ne_nil
  rw [Nat.ofDigitChars_ten_toDigits] at digits
  rw [Document.toList_toString]
  split
  · rename_i negative
    obtain ⟨c, cs, eq⟩ := List.exists_cons_of_ne_nil (@Nat.toDigits_ne_nil z.natAbs 10)
    have isDigit := plain_toDigits z.natAbs c (eq ▸ List.mem_cons_self)
    rw [List.singleton_append, eq, read?_minus digit isDigit, ← eq, digits, decide_eq_true negative]
    rfl
  · rename_i nonneg
    rw [List.nil_append, digits, decide_eq_false nonneg]

end Text.Numeral

namespace Binary64

/-- The decimal of a whole number that fits, without a fraction. -/
theorem ofDecimal_whole (negative : Bool) {k : Nat} (fits : Representable (k * one)) :
    ofDecimal negative k 0 = finite negative (k * one) fits := by
  rcases Nat.eq_zero_or_pos k with rfl | pos
  · simp [ofDecimal]
  · rw [ofDecimal.eq_def, if_neg (Nat.ne_of_gt pos)]
    split
    · rename_i e exponent
      obtain rfl : e = 0 := by
        rw [Int.ofNat_eq_natCast] at exponent
        omega
      rw [if_neg (by decide), Nat.pow_zero, Nat.mul_one, ofRatio_of_representable negative fits]
    · rename_i e exponent
      exact absurd exponent (by omega)

/-- The sign of a whole number is that of its count of quanta, unless both are zero. -/
theorem signed_decide_lt (negative : Bool) (k m : Nat) :
    signed (decide (signed negative k < 0)) (k * m) = signed negative (k * m) := by
  rcases Nat.eq_zero_or_pos k with rfl | pos
  · cases negative <;> simp [signed]
  · have sign : decide (signed negative k < 0) = negative := by
      cases negative <;> simp [signed, pos]
    rw [sign]

/-- An integer that fits is the number of that position. -/
theorem toNumber_signed (negative : Bool) {k : Nat} (fits : Representable (k * one)) :
    (⟨decide (signed negative k < 0), (signed negative k).natAbs, 0⟩ : Numeral).toNumber ==
      finite negative (k * one) fits := by
  rw [natAbs_signed, Numeral.toNumber, ofDecimal_whole _ fits, beq_iff_of_position? rfl rfl]
  exact signed_decide_lt negative k one

end Binary64

namespace Value

open Binary64

/-! ## Reading what is displayed -/

/-- A finite number is read back from its display, up to the sign of zero. -/
theorem exists_read?_numberText {n : Binary64} (h : n.isFinite) : ∃ m : Numeral,
    Numeral.read? digit? (numberText n).toList = some m ∧ m.toNumber == n := by
  have full : ∃ m, Numeral.read? digit? n.text.toList = some m ∧ (m.toNumber == n) = true := by
    obtain ⟨m, read, rfl⟩ := Option.map_eq_some_iff.1 (read?_text knowsDigits_digit? h)
    exact ⟨m, read, beq_self (ofDecimal_ne_nan _ _ _)⟩
  cases n with
  | nan => cases h
  | infinite negative => cases h
  | finite negative quanta fits =>
    rw [numberText]
    split
    · rename_i small
      have whole : quanta / one * one = quanta := Nat.div_mul_cancel small.1
      refine ⟨_, Numeral.read?_toString knowsDigits_digit? _, ?_⟩
      have fits' : Representable (quanta / one * one) := by rwa [whole]
      have read := toNumber_signed negative fits'
      simpa only [whole] using read
    · exact full

/-- The names of nan and the infinities are no numerals. -/
theorem read?_numberText_eq_none {n : Binary64} (h : n.isFinite = false) :
    Numeral.read? digit? (numberText n).toList = none := by
  cases n with
  | nan => decide
  | infinite negative => cases negative <;> decide
  | finite => cases h

/-! ## Numbers that look the same -/

/-- The sign of zero is not displayed. -/
theorem numberText_zero (negative : Bool) (fits : Representable 0) :
    numberText (.finite negative 0 fits) = toString (0 : Int) := by
  have none : signed negative 0 = 0 := by cases negative <;> rfl
  rw [numberText, if_pos ⟨Nat.dvd_zero one, Nat.mul_pos (by decide) Binary64.one_pos⟩, Nat.zero_div, none]

theorem numberText_congr {m n : Binary64} (hm : m.isFinite) (hn : n.isFinite) (h : m == n) :
    numberText m = numberText n := by
  cases m with
  | nan => cases hm
  | infinite => cases hm
  | finite s quanta fits =>
    cases n with
    | nan => cases hn
    | infinite => cases hn
    | finite t quanta' fits' =>
      -- Equal numbers have the same quanta, and the same sign unless they are zeros.
      have same : signed s quanta = signed t quanta' := (beq_iff_of_position? rfl rfl).1 h
      have magnitude := congrArg Int.natAbs same
      rw [natAbs_signed, natAbs_signed] at magnitude
      subst magnitude
      rcases Nat.eq_zero_or_pos quanta with rfl | pos
      · rw [numberText_zero, numberText_zero]
      · have sign : s = t := by
          cases s <;> cases t <;> simp [signed] at same ⊢ <;> omega
        rw [sign]

/-- Finite numbers look the same iff they are equal. -/
theorem numberText_eq_iff {m n : Binary64} (hm : m.isFinite) (hn : n.isFinite) :
    numberText m = numberText n ↔ m == n := by
  refine ⟨fun same => ?_, numberText_congr hm hn⟩
  obtain ⟨a, read, equal⟩ := exists_read?_numberText hm
  obtain ⟨b, read', equal'⟩ := exists_read?_numberText hn
  rw [same, read'] at read
  obtain rfl := Option.some.inj read
  exact beq_of_beq_of_beq equal equal'

end Value

end Carom
