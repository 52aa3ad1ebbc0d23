import Carom.Binary64.Text
import Carom.Proofs.Binary64.Decimal
import Carom.Proofs.Text.Digit

/-!
# Reading the text of a number

The digits that a number is written with read as it (`spells_shortest`), and so does the text in
which they are laid out, whatever the layout: the point and the exponent make up for each other
(`reads_positional`, `reads_scientific`). Together, the text of a finite number is
read as that number, with any table of digits that knows `0` to `9` (`read?_text`).
-/

namespace Carom.Binary64

open Text

/-! ## Digits -/

/-- Digits that read as a count of quanta, the first of them worth `10 ^ exponent`. -/
structure Spells (quanta : Nat) (ds : List Char) (exponent : Int) : Prop where
  plain : Plain ds
  ne : ds ≠ []
  reads : ∃ power : Nat, readsAs quanta (Nat.ofDigitChars 10 ds 0 * 10 ^ power) ∧
    exponent = power + ds.length - 1 - 1074

/-- Digits are the digits without the zeros at their end, and these zeros. -/
theorem exists_eq_append_zeros (cs : List Char) : ∃ zeros,
    cs = (cs.reverse.dropWhile (· == '0')).reverse ++ List.replicate zeros '0' := by
  have zeros : ∀ c ∈ (cs.reverse.takeWhile (· == '0')).reverse, c = '0' := fun c mem => by
    have := List.all_eq_true.1 List.all_takeWhile c (List.mem_reverse.1 mem)
    simpa using this
  refine ⟨(cs.reverse.takeWhile (· == '0')).reverse.length, ?_⟩
  rw [← List.eq_replicate_of_mem zeros, ← List.reverse_append, List.takeWhile_append_dropWhile,
    List.reverse_reverse]

/-- Nothing but zero reads as zero. -/
theorem not_readsAs_zero {quanta : Nat} (ne : quanta ≠ 0) : readsAs quanta 0 = false := by
  have zero : nearest 0 quantumTenths = 0 := nearest_eq_zero quantumTenths_pos
  rw [readsAs, zero]
  exact beq_false_of_ne ne.symm

/-- The shortest digits of a number spell it. -/
theorem spells_shortest {quanta : Nat} (fits : Representable quanta) (ne : quanta ≠ 0) :
    Spells quanta (shortest quanta).1 (shortest quanta).2 := by
  have reads := readsAs_firstReading fits ((decimalDigits (tenths quanta)).length - 1)
  rw [shortest]
  generalize firstReading quanta ((decimalDigits (tenths quanta)).length - 1) = found at reads ⊢
  obtain ⟨digits, power⟩ := found
  -- The zeros at the end of the digits go over into the power of ten.
  obtain ⟨zeros, eq⟩ := exists_eq_append_zeros (decimalDigits digits)
  simp only at reads ⊢
  generalize ((decimalDigits digits).reverse.dropWhile (· == '0')).reverse = ds at eq ⊢
  have value : digits = Nat.ofDigitChars 10 ds 0 * 10 ^ zeros := by
    rw [← ofDigitChars_append_zeros, ← eq]
    exact Nat.ofDigitChars_ten_toDigits.symm
  refine ⟨fun c mem => plain_toDigits digits c ?_, ?_, zeros + power, ?_, ?_⟩
  · rw [decimalDigits] at eq
    rw [eq]
    exact List.mem_append_left _ mem
  · rintro rfl
    rw [value, Nat.ofDigitChars_nil, Nat.zero_mul, Nat.zero_mul, not_readsAs_zero ne] at reads
    cases reads
  · rwa [value, Nat.mul_assoc, ← Nat.pow_add] at reads
  · rw [eq, List.length_append, List.length_replicate]
    push_cast
    omega

namespace Spells

variable {quanta : Nat} {ds : List Char} {exponent : Int} (h : Spells quanta ds exponent)

include h

/-- The last digit stands for `10 ^ -1074` at least. -/
theorem low : -1074 ≤ exponent + 1 - ds.length := by
  obtain ⟨power, -, rfl⟩ := h.reads
  omega

/-- Digits with zeros behind them are the number that they spell, if the exponent makes up for
    the zeros. -/
theorem ofDecimal_eq (fits : Representable quanta) (ne : quanta ≠ 0) (zeros : Nat) {x : Int}
    (low : -1074 ≤ x) (hx : x + zeros = exponent + 1 - ds.length) (negative : Bool) :
    ofDecimal negative (Nat.ofDigitChars 10 ds 0 * 10 ^ zeros) x =
      finite negative quanta fits := by
  obtain ⟨power, reads, rfl⟩ := h.reads
  obtain ⟨m, rfl⟩ : ∃ m : Nat, x = (m : Int) - 1074 := ⟨(x + 1074).toNat, by omega⟩
  obtain rfl : power = zeros + m := by omega
  refine ofDecimal_of_readsAs fits ne ?_ negative
  rwa [Nat.mul_assoc, ← Nat.pow_add]

end Spells

/-! ## Layout -/

/-- An integer is its magnitude with its sign. -/
theorem signed_natAbs (z : Int) : signed (decide (z < 0)) z.natAbs = z := by
  rw [signed]
  split
  · rename_i neg
    have : z < 0 := of_decide_eq_true neg
    omega
  · rename_i pos
    have : ¬z < 0 := of_decide_eq_false (Bool.not_eq_true _ ▸ pos)
    omega

/-- A text without a sign that is read as a count of quanta. -/
structure Reads (digit : Char → Option Nat) (cs : List Char) (quanta : Nat)
    (fits : Representable quanta) : Prop where
  begins : ∃ c rest, cs = c :: rest ∧ c.isDigit
  solid : ∀ c ∈ cs, isWhiteSpace c = false
  reads : ∃ digits exponent, Numeral.read? digit cs = some ⟨false, digits, exponent⟩ ∧
    ∀ negative, ofDecimal negative digits exponent = finite negative quanta fits

section

variable {digit : Char → Option Nat} (knows : KnowsDigits digit) {quanta : Nat}
  (fits : Representable quanta) (ne : quanta ≠ 0) {ds : List Char} {exponent : Int}
  (h : Spells quanta ds exponent)

include knows ne h

/-- Digits around a point, with an exponent or without one: zeros may be added and the point may
    be moved, if the exponent makes up for it. -/
theorem reads_pointed (zeros : Nat) {whole fraction rest : List Char} {e : Int}
    (plain : Plain whole) (nonempty : whole ≠ []) (plain' : Plain fraction)
    (value : Nat.ofDigitChars 10 (whole ++ fraction) 0 = Nat.ofDigitChars 10 ds 0 * 10 ^ zeros)
    (marked : Numeral.exponent? digit rest = some e) (stop : ∀ c ∈ rest.head?, digit c = none)
    (solid : ∀ c ∈ rest, isWhiteSpace c = false) (low : -1074 ≤ e - fraction.length)
    (place : e - fraction.length + zeros = exponent + 1 - ds.length) :
    Reads digit (whole ++ '.' :: (fraction ++ rest)) quanta fits where
  begins := by
    obtain ⟨c, cs, rfl⟩ := List.exists_cons_of_ne_nil nonempty
    exact ⟨c, _, rfl, (plain_cons.1 plain).1⟩
  solid := by
    have point : isWhiteSpace '.' = false := by decide
    rw [List.forall_mem_append, List.forall_mem_cons, List.forall_mem_append]
    exact ⟨isWhiteSpace_of_plain plain, point, isWhiteSpace_of_plain plain', solid⟩
  reads := by
    refine ⟨_, _, Numeral.read?_pointed knows plain nonempty plain' marked stop, fun negative => ?_⟩
    rw [value]
    exact h.ofDecimal_eq fits ne zeros low place negative

/-- A number in positional notation is read back. -/
theorem reads_positional : Reads digit (positional ds exponent) quanta fits := by
  have pointed (zeros : Nat) {whole fraction : List Char} (plain : Plain whole)
      (nonempty : whole ≠ []) (plain' : Plain fraction)
      (value : Nat.ofDigitChars 10 (whole ++ fraction) 0 = Nat.ofDigitChars 10 ds 0 * 10 ^ zeros)
      (low : fraction.length ≤ 1074)
      (place : (zeros : Int) = exponent + 1 - ds.length + fraction.length) :
      Reads digit (whole ++ '.' :: fraction) quanta fits := by
    have none : Numeral.exponent? digit [] = some 0 := rfl
    have reads := reads_pointed knows fits ne h zeros plain nonempty plain' value none (by simp)
      (by simp) (by omega) (by omega)
    rwa [List.append_nil] at reads
  have low := h.low
  rw [positional.eq_def]
  split
  · rename_i e
    have plain := h.plain
    rw [← List.take_append_drop (e + 1) ds, plain_append] at plain
    have length_take : (ds.take (e + 1)).length = min (e + 1) ds.length := List.length_take
    have length_drop : (ds.drop (e + 1)).length = ds.length - (e + 1) := List.length_drop
    rw [Int.ofNat_eq_natCast] at pointed low
    dsimp only
    split
    · -- The point is behind the last digit, so zeros fill the gap, and one follows the point.
      rename_i done
      have short : ds.length ≤ e + 1 := by simpa [List.drop_eq_nil_iff] using done
      have zeros : List.replicate (e + 1 - ds.length) '0' ++ ['0'] =
          List.replicate (e + 1 - ds.length + 1) '0' := List.replicate_succ'.symm
      have length_zero : ['0'].length = 1 := rfl
      rw [List.take_of_length_le short]
      refine pointed (e + 1 - ds.length + 1) (plain_append.2 ⟨h.plain, plain_replicate_zero _⟩)
        (by simp [h.ne]) (plain_replicate_zero 1) ?_ (by omega) (by omega)
      rw [List.append_assoc, zeros, ofDigitChars_append_zeros]
    · -- The point stands between two digits, and nothing is filled up.
      rename_i more
      have long : e + 1 < ds.length := by simpa [List.drop_eq_nil_iff] using more
      have noGap : e + 1 - (ds.take (e + 1)).length = 0 := by omega
      rw [noGap, List.replicate_zero, List.append_nil]
      refine pointed 0 plain.1 (by simp [h.ne]) plain.2 ?_ (by omega) ?_
      · rw [List.take_append_drop, Nat.pow_zero, Nat.mul_one]
      · omega
  · -- The point is in front of the digits, with a zero before it and zeros behind it, which count
    -- for nothing.
    rename_i e
    rw [Int.negSucc_eq] at pointed low
    have length : (List.replicate e '0' ++ ds).length = e + ds.length := by simp
    have front : ['0'] ++ (List.replicate e '0' ++ ds) = List.replicate (e + 1) '0' ++ ds := rfl
    have reads := pointed 0 (plain_replicate_zero 1) (by simp)
      (plain_append.2 ⟨plain_replicate_zero e, h.plain⟩)
    rw [List.replicate_one, front, ofDigitChars_zeros_append, Nat.pow_zero, Nat.mul_one] at reads
    exact reads rfl (by omega) (by omega)

/-- And one in scientific notation, however wide its exponent is written. -/
theorem reads_scientific (width : Nat) :
    Reads digit (scientific width ds exponent) quanta fits := by
  let power := padLeft width (decimalDigits exponent.natAbs)
  let mark := 'e' :: (if exponent < 0 then '-' else '+') :: power
  have plain_power : Plain power := plain_append.2 ⟨plain_replicate_zero _, plain_toDigits _⟩
  have power_ne : power ≠ [] := by simp [power, padLeft, decimalDigits]
  have value_power : Nat.ofDigitChars 10 power 0 = exponent.natAbs :=
    (ofDigitChars_zeros_append _ _).trans Nat.ofDigitChars_ten_toDigits
  have marked : Numeral.exponent? digit mark = some exponent := by
    have read := Numeral.exponent?_signed knows plain_power power_ne (decide (exponent < 0))
    rw [value_power, signed_natAbs] at read
    simpa using read
  have stop : ∀ c ∈ mark.head?, digit c = none := by
    rintro c ⟨⟩
    exact knows.mark
  have solid : ∀ c ∈ mark, isWhiteSpace c = false := by
    refine List.forall_mem_cons.2 ⟨by decide, List.forall_mem_cons.2 ⟨?_, ?_⟩⟩
    · split <;> decide
    · exact isWhiteSpace_of_plain plain_power
  have low := h.low
  obtain ⟨first, rest, rfl⟩ := List.exists_cons_of_ne_nil h.ne
  obtain ⟨isDigit, plain_rest⟩ := plain_cons.1 h.plain
  have plain_first : Plain [first] := plain_cons.2 ⟨isDigit, plain_nil⟩
  have length_first : [first].length = 1 := rfl
  cases rest with
  -- A single digit has no point behind it.
  | nil =>
    have text : scientific width [first] exponent = [first] ++ mark := rfl
    have read := Numeral.read?_whole knows plain_first (by simp) marked
    rw [text]
    refine ⟨⟨first, _, rfl, isDigit⟩, ?_, _, _, read, fun negative => ?_⟩
    · exact List.forall_mem_append.2 ⟨isWhiteSpace_of_plain plain_first, solid⟩
    · have value := h.ofDecimal_eq fits ne 0 (x := exponent) (by omega) (by omega) negative
      rwa [Nat.pow_zero, Nat.mul_one] at value
  | cons second rest =>
    have text : scientific width (first :: second :: rest) exponent =
        [first] ++ '.' :: (second :: rest ++ mark) := rfl
    rw [List.length_cons] at low
    rw [text]
    refine reads_pointed knows fits ne h 0 plain_first (by simp) plain_rest ?_ marked stop solid
      (by omega) ?_
    · rw [Nat.pow_zero, Nat.mul_one]
      rfl
    · rw [@List.length_cons _ first]
      omega

end

section

variable {digit : Char → Option Nat} (knows : KnowsDigits digit)

include knows

/-- The text of a magnitude is read as that magnitude, whatever the layout. -/
theorem reads_magnitudeText (l : Layout) {quanta : Nat} (fits : Representable quanta) :
    Reads digit (magnitudeText l quanta) quanta fits := by
  rw [magnitudeText]
  split
  · rename_i zero
    subst zero
    have text : positional ['0'] 0 = ['0', '.', '0'] := rfl
    have plain := plain_replicate_zero 1
    have none : Numeral.exponent? digit [] = some 0 := rfl
    have read := Numeral.read?_pointed knows plain (by simp) plain none (by simp)
    rw [text]
    exact ⟨⟨'0', _, rfl, rfl⟩, by simp [isWhiteSpace], _, _, read, fun _ => rfl⟩
  · rename_i ne
    have spells := spells_shortest fits ne
    split
    rename_i found
    rw [found] at spells
    split
    · exact reads_positional knows fits ne spells
    · exact reads_scientific knows fits ne spells _

/-- A finite number is read from its text. -/
theorem read?_text {x : Binary64} (h : x.isFinite) :
    (Numeral.read? digit x.text.toList).map Numeral.toNumber = some x := by
  cases x with
  | nan => cases h
  | infinite negative => cases h
  | finite negative quanta fits =>
    obtain ⟨⟨c, rest, begins, isDigit⟩, -, digits, exponent, read, value⟩ :=
      reads_magnitudeText knows layout fits
    cases negative with
    | false =>
      rw [text, String.toList_ofList, read]
      exact congrArg some (value false)
    | true =>
      rw [text, String.toList_ofList, begins, Numeral.read?_minus digit isDigit, ← begins, read]
      exact congrArg some (value true)

end

end Carom.Binary64
