import Mathlib.Data.List.Basic
import Mathlib.Data.List.TakeWhile
import Carom.Document.Scalar
import Carom.Proofs.Binary64.Text
import Carom.Proofs.Text.Blank

/-!
# Scalars that are written and read back

Every number is read from the text that it is written as (`number_ofNumber`), nan and the
infinities included. An integer is, if it has at most `maxIntegerDigits` digits, and else it is
not read at all (`int_ofInt_eq_valid_iff`). An integer of more digits comes out of a document only
if that is the integer itself (`isShort_of_int`).
-/

namespace Carom

open Text

namespace Text

/-! ## Numbers -/

theorem toLower_of_isDigit {c : Char} (h : c.isDigit) : c.toLower = c := by
  have high : c.val.toNat ≤ 57 := (Char.isDigit_iff_toNat.1 h).2
  have notUpper : ¬(c.val ≥ 'A'.val ∧ c.val ≤ 'Z'.val) := fun upper => by
    have low : 65 ≤ c.val.toNat := UInt32.le_iff_toNat_le.1 upper.1
    omega
  exact dif_neg notUpper

/-- What begins with a digit, or with a sign and a digit, is not the name of a number. -/
theorem namedNumber?_of_isDigit {cs rest : List Char} {c : Char} {negative : Bool}
    (sign : takeSign cs = (negative, c :: rest)) (h : c.isDigit) : namedNumber? cs = none := by
  have lower := toLower_of_isDigit h
  have ne_i : c ≠ 'i' := by rintro rfl; cases h
  have ne_n : c ≠ 'n' := by rintro rfl; cases h
  simp [namedNumber?, sign, lower, ne_i, ne_n]

/-- A text of nothing but a number is that number, by its name or by its digits. -/
theorem number?_of_solid {cs : List Char} (solid : ∀ c ∈ cs, isWhiteSpace c = false) {x : Binary64}
    (h : plainNumber? cs = some x) : number? cs = some x := by
  rw [number?, trim_eq_self solid, h]

theorem plainNumber?_of_isDigit {cs rest : List Char} {c : Char} {negative : Bool}
    (sign : takeSign cs = (negative, c :: rest)) (h : c.isDigit) :
    plainNumber? cs = (Numeral.read? asciiDigit? cs).map Numeral.toNumber := by
  rw [plainNumber?, namedNumber?_of_isDigit sign h]

/-- Every number is read from its text. -/
theorem number?_text (x : Binary64) : number? x.text.toList = some x := by
  cases x with
  | nan => decide
  | infinite negative => cases negative <;> decide
  | finite negative quanta fits =>
    obtain ⟨⟨c, rest, begins, isDigit⟩, solid, -⟩ :=
      Binary64.reads_magnitudeText knowsDigits_asciiDigit? Binary64.layout fits
    have read := Binary64.read?_text knowsDigits_asciiDigit? (x := .finite negative quanta fits) rfl
    rw [begins] at solid
    cases negative with
    | false =>
      rw [Binary64.text, String.toList_ofList, begins] at read ⊢
      refine number?_of_solid solid ?_
      rw [plainNumber?_of_isDigit (takeSign_of_isDigit isDigit rest) isDigit, read]
    | true =>
      have minus : takeSign ('-' :: c :: rest) = (true, c :: rest) := rfl
      rw [Binary64.text, String.toList_ofList, begins] at read ⊢
      refine number?_of_solid (List.forall_mem_cons.2 ⟨by decide, solid⟩) ?_
      rw [plainNumber?_of_isDigit minus isDigit, read]

/-! ## Integers -/

/-- The digits of a positive number do not begin with a zero. -/
theorem head?_toDigits_ne {n : Nat} (pos : 0 < n) : (Nat.toDigits 10 n).head? ≠ some '0' := by
  induction n using Nat.strongRecOn with
  | ind n ih =>
    rcases Nat.lt_or_ge n 10 with small | large
    · rw [Nat.toDigits_of_lt_base small]
      simpa using Nat.ne_of_gt pos
    · rw [Nat.toDigits_of_base_le (by decide) large,
        List.head?_append_of_ne_nil _ Nat.toDigits_ne_nil]
      exact ih (n / 10) (by omega) (by omega)

section

variable {c : Char} {cs : List Char} (plain : Plain (c :: cs)) (lead : c ≠ '0')

include plain lead

theorem digitValue_ne_zero : digitValue c ≠ 0 := by
  intro zero
  have low : 48 ≤ c.toNat := (Char.isDigit_iff_toNat.1 (plain_cons.1 plain).1).1
  refine lead (Char.toNat_inj.1 ?_)
  have : '0'.toNat = 48 := rfl
  unfold digitValue at zero
  omega

/-- Digits are an overlong text if they are too many, whether there is a minus sign or not. -/
theorem beginsOverlong_of_plain {signed : List Char} (minus : (takeMinus signed).2 = c :: cs) :
    beginsOverlong signed = decide (maxIntegerDigits < (c :: cs).length) := by
  have ne := digitValue_ne_zero plain lead
  rw [beginsOverlong, minus, takeDigits_of_plain knowsDigits_asciiDigit? plain]
  simp [ne]

theorem integerDigits?_of_plain :
    integerDigits? (c :: cs) = some (false, (c :: cs).map digitValue) := by
  -- None of the characters that are looked for is a digit.
  have not_minus : c ≠ '-' := by
    rintro rfl
    exact absurd (plain_cons.1 plain).1 (by decide)
  have not_point : ∀ d ∈ c :: cs, d ≠ '.' := fun d mem => by
    rintro rfl
    exact absurd (plain _ mem) (by decide)
  have not_underscore : '_' ∉ c :: cs := fun mem => absurd (plain _ mem) (by decide)
  have whole : dropZeroFraction (c :: cs) = c :: cs := by
    have all : (c :: cs).takeWhile (· != '.') = c :: cs :=
      List.takeWhile_eq_self_iff.2 (by simpa using not_point)
    rw [dropZeroFraction]
    simp [all]
  have leading : dropLeadingZeros (c :: cs) = c :: cs := by
    rw [dropLeadingZeros.eq_def]
    split
    · rename_i more eq
      exact absurd (List.cons.inj eq).1 lead
    · rfl
  have unsigned := takeMinus_of_isDigit (plain_cons.1 plain).1 cs
  have ne := digitValue_ne_zero plain lead
  rw [integerDigits?, whole, leading, ungroup?_of_not_mem not_underscore]
  simp [not_minus, unsigned, takeDigits_of_plain knowsDigits_asciiDigit? plain, ne]

end

/-- The digits of an integer behind its sign are read as that integer, unless they are too
    many. -/
theorem integer_of_toDigits {n : Nat} (pos : 0 < n) (negative : Bool) :
    integer ((if negative then ['-'] else []) ++ Nat.toDigits 10 n) =
      if n < 10 ^ maxIntegerDigits then .valid (Binary64.signed negative n)
      else .flawed .oversizedInteger := by
  have plain := plain_toDigits n
  have lead := head?_toDigits_ne pos
  have few : (Nat.toDigits 10 n).length ≤ maxIntegerDigits ↔ n < 10 ^ maxIntegerDigits :=
    Nat.length_toDigits_le_iff (by decide) (by decide)
  have value : ofDigits ((Nat.toDigits 10 n).map digitValue) = n := by
    rw [ofDigits_map_digitValue, Nat.ofDigitChars_ten_toDigits]
  obtain ⟨c, cs, digits⟩ := List.exists_cons_of_ne_nil (@Nat.toDigits_ne_nil n 10)
  rw [digits] at plain lead few value ⊢
  have lead' : c ≠ '0' := by simpa using lead
  have isDigit := (plain_cons.1 plain).1
  have sign : takeSign ((if negative then ['-'] else []) ++ c :: cs) = (negative, c :: cs) := by
    cases negative with
    | false => exact takeSign_of_isDigit isDigit cs
    | true => rfl
  have minus : (takeMinus ((if negative then ['-'] else []) ++ c :: cs)).2 = c :: cs := by
    cases negative with
    | false => exact congrArg Prod.snd (takeMinus_of_isDigit isDigit cs)
    | true => rfl
  have solid : ∀ d ∈ (if negative then ['-'] else []) ++ c :: cs, isWhiteSpace d = false := by
    refine List.forall_mem_append.2 ⟨?_, isWhiteSpace_of_plain plain⟩
    cases negative <;> simp [isWhiteSpace]
  rw [integer, beginsOverlong_of_plain plain lead' minus, trim_eq_self solid, sign]
  simp only [integerDigits?_of_plain plain lead', decide_eq_true_eq, List.length_map,
    Bool.and_false, Bool.false_or, Bool.or_false, value]
  by_cases h : n < 10 ^ maxIntegerDigits
  · have short := Nat.not_lt.2 (few.2 h)
    rw [if_neg short, if_neg short, if_pos h]
  · have long := Nat.not_le.1 (mt few.1 h)
    rw [if_pos long, if_neg h]

theorem lt_ten_of_asciiDigit? {c : Char} {d : Nat} (h : asciiDigit? c = some d) : d < 10 := by
  rw [asciiDigit?] at h
  split at h
  · rename_i range
    have high : c.toNat ≤ 57 := range.2
    have zero : '0'.toNat = 48 := rfl
    cases h
    omega
  · cases h

theorem lt_ten_of_takeDigits {cs rest : List Char} {ds : List Nat}
    (h : takeDigits asciiDigit? cs = (ds, rest)) : ∀ d ∈ ds, d < 10 := by
  induction cs generalizing ds with
  | nil =>
    cases h
    exact List.forall_mem_nil _
  | cons c cs ih =>
    rw [takeDigits] at h
    split at h
    · rename_i value
      cases h
      exact List.forall_mem_cons.2 ⟨lt_ten_of_asciiDigit? value, ih rfl⟩
    · cases h
      exact List.forall_mem_nil _

/-- Each further digit makes room for ten times as many numbers. -/
theorem foldl_digits_lt {ds : List Nat} (h : ∀ d ∈ ds, d < 10) (n : Nat) :
    ds.foldl (fun n d => 10 * n + d) n < (n + 1) * 10 ^ ds.length := by
  induction ds generalizing n with
  | nil => simp
  | cons d ds ih =>
    obtain ⟨lt, rest⟩ := List.forall_mem_cons.1 h
    calc ds.foldl (fun n d => 10 * n + d) (10 * n + d)
        < (10 * n + d + 1) * 10 ^ ds.length := ih rest _
      _ ≤ (n + 1) * 10 * 10 ^ ds.length := Nat.mul_le_mul_right _ (by omega)
      _ = (n + 1) * 10 ^ (d :: ds).length := by
        rw [List.length_cons, Nat.pow_succ', Nat.mul_assoc]

/-- So many digits make a number of so many digits. -/
theorem ofDigits_lt {ds : List Nat} (h : ∀ d ∈ ds, d < 10) : ofDigits ds < 10 ^ ds.length := by
  simpa [ofDigits] using foldl_digits_lt h 0

theorem lt_ten_of_integerDigits? {cs : List Char} {negative : Bool} {ds : List Nat}
    (h : integerDigits? cs = some (negative, ds)) : ∀ d ∈ ds, d < 10 := by
  rw [integerDigits?] at h
  split at h
  · cases h
  split at h
  · cases h
  dsimp only at h
  split at h
  · cases h
  · rename_i taken
    cases h
    exact lt_ten_of_takeDigits taken
  · cases h

/-- No text is read as an integer of too many digits. -/
theorem natAbs_lt_of_integer {cs : List Char} {z : Int} (h : integer cs = .valid z) :
    z.natAbs < 10 ^ maxIntegerDigits := by
  rw [integer] at h
  split at h
  · cases h
  dsimp only at h
  split at h
  · cases h
  rename_i inner digits found
  split at h
  · cases h
  rename_i few
  have short : digits.length ≤ maxIntegerDigits := by simp at few; omega
  cases h
  rw [Binary64.natAbs_signed]
  exact Nat.lt_of_lt_of_le (ofDigits_lt (lt_ten_of_integerDigits? found))
    (Nat.pow_le_pow_right (by decide) short)

end Text

namespace Document

open Checked

/-! ## Documents -/

theorem number_text {s : String} {x : Binary64} (h : Text.number? s.toList = some x) :
    (text s).number = valid x := by
  rw [number.eq_def]
  dsimp only
  rw [h]

/-- A number is read from what is written for it. -/
theorem number_ofNumber (x : Binary64) : (ofNumber x).number = valid x :=
  number_text (number?_text x)

theorem nonnegative_ofNumber {x : Binary64} (h : Binary64.zero ≤ x) :
    (ofNumber x).nonnegative = valid ⟨x, h⟩ := by
  rw [nonnegative, number_ofNumber, andThen, dif_pos h]

/-- An integer is written as its digits, behind a minus sign if it is negative. -/
theorem toList_toString (z : Int) : (toString z).toList =
    (if z < 0 then ['-'] else []) ++ Nat.toDigits 10 z.natAbs := by
  rw [Int.toString_eq_repr, Int.repr_eq_if]
  split
  · have abs : z.natAbs = z.toNat := by omega
    rw [if_neg (by omega), List.nil_append, Nat.toList_repr, abs]
  · have abs : z.natAbs = (-z).toNat := by omega
    rw [if_pos (by omega), String.toList_append, Nat.toList_repr, abs]
    rfl

/-- An integer of at most `maxIntegerDigits` digits. -/
def IsShort (z : Int) : Prop := z.natAbs < 10 ^ maxIntegerDigits

instance (z : Int) : Decidable (IsShort z) := inferInstanceAs (Decidable (_ < _))

theorem isShort_of_natAbs_le {z : Int} {k : Nat} (h : z.natAbs < 10 ^ k)
    (le : k ≤ maxIntegerDigits) : IsShort z :=
  Nat.lt_of_lt_of_le h (Nat.pow_le_pow_right (by decide) le)

/-- A power of ten has one digit more than its exponent, so it is not short if that is large. -/
theorem not_isShort_ten_pow {k : Nat} (le : maxIntegerDigits ≤ k) : ¬IsShort (10 ^ k) := by
  have ten : (10 : Int).natAbs = 10 := rfl
  rw [IsShort, Int.natAbs_pow, ten]
  exact Nat.not_lt.2 (Nat.pow_le_pow_right (by decide) le)

/-- An integer is read from what is written for it if it has not too many digits. -/
theorem int_ofInt (z : Int) :
    (ofInt z).int = if IsShort z then valid z else flawed .oversizedInteger := by
  rw [ofInt]
  split
  · rename_i small
    have short : z.natAbs < 10 ^ 53 := Nat.lt_of_le_of_lt small (by decide)
    rw [if_pos (isShort_of_natAbs_le short (by decide))]
    rfl
  · rename_i large
    have read := integer_of_toDigits (n := z.natAbs) (by omega) (decide (z < 0))
    simp only [decide_eq_true_eq] at read
    rw [Binary64.signed_natAbs, ← toList_toString] at read
    exact read

/-- So an integer is read as itself, or not at all. -/
theorem int_ofInt_eq_valid_iff {z w : Int} : (ofInt z).int = valid w ↔ IsShort z ∧ w = z := by
  rw [int_ofInt]
  split
  · rename_i short
    simp [short, eq_comm]
  · rename_i long
    simp [long, flawed]

/-- The same for an integer that may not be too small. -/
theorem natural_ofInt_eq_valid_iff {n least : Nat} (le : least ≤ n) {m : { n : Nat // least ≤ n }} :
    (ofInt n).natural least = valid m ↔ IsShort n ∧ m = ⟨n, le⟩ := by
  have bound : (least : Int) ≤ n := Int.ofNat_le.2 le
  rw [natural, int_ofInt]
  split
  · rename_i short
    rw [andThen, dif_pos bound]
    simp [short, eq_comm]
  · rename_i long
    simp [long, flawed, andThen]

/-- No document is read as an integer of too many digits, unless it is that integer. -/
theorem isShort_of_int {d : Document} {z : Int} (h : d.int = valid z) (ne : d ≠ integer z) :
    IsShort z := by
  have small {z : Int} (h : z.natAbs < 2 ^ 63) : IsShort z :=
    isShort_of_natAbs_le (Nat.lt_trans h (by decide : 2 ^ 63 < 10 ^ 63)) (by decide)
  cases d with
  | integer w =>
    cases h
    exact absurd rfl ne
  | boolean b =>
    cases h
    exact small (by cases b <;> decide)
  -- A number is an integer only if that fits into 64 bits.
  | real x =>
    rw [int, intOfReal] at h
    split at h
    · cases h
    split at h
    · cases h
    split at h
    · rename_i lt
      cases h
      exact small lt
    · cases h
  | text s => exact natAbs_lt_of_integer h
  | _ => cases h

end Document

end Carom
