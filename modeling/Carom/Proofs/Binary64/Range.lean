import Carom.Numeric

/-!
# The range of the format

Rounding leaves the range half a unit before its end: the last count of quanta below
`2 ^ (k + 54)` that fits is one unit, `2 ^ (k + 1)`, away from it, and what lies in the
upper half of that unit is rounded up, the middle too (`nearest_lt_two_pow_iff`). So the
integers that no number can hold are those from `2 ^ 1024 - 2 ^ 970` on, of either sign
(`ofInt?_eq_none_iff`).

Up to `2 ^ 53` every natural number is a number of the format, and their order is the one of
the format (`ofInt?_natCast`, `le_iff_of_ofInt?`).
-/

namespace Carom.Binary64

theorem natAbs_signed (negative : Bool) (n : Nat) : (signed negative n).natAbs = n := by
  cases negative <;> simp [signed]

theorem le_roundDiv (num den : Nat) : num / den ≤ roundDiv num den := by
  rw [roundDiv]
  split <;> omega

section

variable {num den k : Nat}

/-- A quotient that is a binade below a bound is rounded below it. -/
theorem nearest_lt_of_lt (h : num / den < 2 ^ (k + 53)) : nearest num den < 2 ^ (k + 54) := by
  have unit_le : unit (num / den) ≤ 2 ^ k := by
    refine Nat.pow_le_pow_right (by decide) ?_
    rcases Nat.eq_zero_or_pos (num / den) with zero | pos
    · simp [zero]
    · have := (Nat.log2_lt (Nat.ne_of_gt pos)).2 h
      omega
  have units_le : roundDiv num (den * unit (num / den)) ≤ 2 ^ 53 := by
    refine Nat.le_trans (roundDiv_le _ _) ?_
    rw [← Nat.div_div_eq_div_mul]
    exact div_unit_lt (num / den)
  rw [nearest]
  calc roundDiv num (den * unit (num / den)) * unit (num / den)
      ≤ 2 ^ 53 * 2 ^ k := Nat.mul_le_mul units_le unit_le
    _ = 2 ^ (k + 53) := by rw [← Nat.pow_add, Nat.add_comm]
    _ < 2 ^ (k + 54) := Nat.pow_lt_pow_right (by decide) (by omega)

/-- A quotient from a bound on is rounded to the bound or above. -/
theorem le_nearest_of_le (h : 2 ^ (k + 54) ≤ num / den) : 2 ^ (k + 54) ≤ nearest num den := by
  have ne : num / den ≠ 0 := Nat.ne_of_gt (Nat.lt_of_lt_of_le (Nat.two_pow_pos _) h)
  have log2_ge : k + 54 ≤ (num / den).log2 := (Nat.le_log2 ne).2 h
  have units_ge : 2 ^ 52 ≤ roundDiv num (den * unit (num / den)) := by
    refine Nat.le_trans ?_ (le_roundDiv _ _)
    rw [← Nat.div_div_eq_div_mul, unit, Nat.le_div_iff_mul_le (Nat.two_pow_pos _), ← Nat.pow_add]
    exact Nat.le_trans (Nat.pow_le_pow_right (by decide) (by omega)) (Nat.log2_self_le ne)
  rw [nearest]
  calc 2 ^ (k + 54) ≤ 2 ^ 52 * unit (num / den) := by
        rw [unit, ← Nat.pow_add]
        exact Nat.pow_le_pow_right (by decide) (by omega)
    _ ≤ roundDiv num (den * unit (num / den)) * unit (num / den) :=
      Nat.mul_le_mul_right _ units_ge

/-- Whether the rest is less than half a unit is seen in the whole part of a quotient, if half a
    unit is whole. -/
theorem two_mul_mod_lt_iff (pos : 0 < den) (half : Nat) :
    2 * (num % (den * (2 * half))) < den * (2 * half) ↔ num / den % (2 * half) < half := by
  have rest_lt : num % den < den := Nat.mod_lt num pos
  rw [Nat.mod_mul, Nat.mul_left_comm, Nat.mul_lt_mul_left (by decide)]
  generalize num / den % (2 * half) = whole
  constructor
  · intro lt
    refine Nat.lt_of_not_le fun le => ?_
    have := Nat.mul_le_mul_left den le
    omega
  · intro lt
    have := Nat.mul_le_mul_left den (Nat.succ_le_of_lt lt)
    rw [Nat.mul_succ] at this
    omega

/-- Rounding reaches a power of two from half a unit below it on. -/
theorem nearest_lt_two_pow_iff (posDen : 0 < den) :
    nearest num den < 2 ^ (k + 54) ↔ num < (2 ^ (k + 54) - 2 ^ k) * den := by
  have pos : 0 < 2 ^ k := Nat.two_pow_pos k
  have h53 : 2 ^ (k + 53) = 2 ^ 53 * 2 ^ k := by rw [← Nat.pow_add, Nat.add_comm]
  have h54 : 2 ^ (k + 54) = 2 ^ 53 * (2 * 2 ^ k) := by
    rw [← Nat.mul_assoc, ← Nat.pow_add_one, ← Nat.pow_add, Nat.add_comm]
  rw [← Nat.div_lt_iff_lt_mul posDen]
  rcases Nat.lt_or_ge (num / den) (2 ^ (k + 53)) with low | low
  · exact iff_of_true (nearest_lt_of_lt low) (by omega)
  rcases Nat.lt_or_ge (num / den) (2 ^ (k + 54)) with high | high
  · -- The unit is `2 * 2 ^ k` here; only in the last one below the power does it matter
    -- which way the rest is rounded.
    have hu : unit (num / den) = 2 * 2 ^ k := by
      have ne : num / den ≠ 0 := by omega
      have hlog : (num / den).log2 = k + 53 := by
        have := (Nat.le_log2 ne).2 low
        have := (Nat.log2_lt ne).2 high
        omega
      rw [unit, hlog, ← Nat.pow_add_one']
      rfl
    have below := @two_mul_mod_lt_iff num den posDen (2 ^ k)
    have split_n := Nat.div_add_mod (num / den) (2 * 2 ^ k)
    have rest_lt : num / den % (2 * 2 ^ k) < 2 * 2 ^ k := Nat.mod_lt _ (by omega)
    have units_lt : num / den / (2 * 2 ^ k) < 2 ^ 53 := by
      rw [Nat.div_lt_iff_lt_mul (by omega)]
      omega
    rw [nearest, hu, h54, Nat.mul_lt_mul_right (by omega), roundDiv, ← Nat.div_div_eq_div_mul]
    generalize num % (den * (2 * 2 ^ k)) = remains at *
    generalize den * (2 * 2 ^ k) = divisor at *
    generalize num / den = whole at *
    generalize 2 ^ k = half at *
    generalize whole / (2 * half) = units at *
    generalize whole % (2 * half) = rest at *
    rcases Nat.lt_or_ge units (2 ^ 53 - 1) with earlier | last
    · have : 2 * half * units ≤ 2 * half * (2 ^ 53 - 2) := Nat.mul_le_mul_left _ (by omega)
      refine iff_of_true ?_ (by omega)
      split <;> omega
    · obtain rfl : units = 2 ^ 53 - 1 := by omega
      split <;> omega
  · exact iff_of_false (Nat.not_lt.2 (le_nearest_of_le high)) (by omega)

end

/-- At the end of a binade, half a unit decides. -/
theorem nearest_mul_lt_iff {n den a b c : Nat} (pos : 0 < den) (h : a + c = b + c + 54) :
    nearest (n * 2 ^ c) den < 2 ^ (a + c) ↔ n < (2 ^ a - 2 ^ b) * den := by
  have bound : 2 ^ (a + c) - 2 ^ (b + c) = (2 ^ a - 2 ^ b) * 2 ^ c := by
    rw [Nat.sub_mul, ← Nat.pow_add, ← Nat.pow_add]
  rw [h, nearest_lt_two_pow_iff pos, ← h, bound, Nat.mul_right_comm,
    Nat.mul_lt_mul_right (Nat.two_pow_pos c)]

theorem limit_eq {e : Nat} (h : e = 2098) : limit = 2 ^ e := by rw [limit, h]

/-- A quotient is always a number. -/
theorem ofRatio_ne_nan (negative : Bool) (num den : Nat) : ofRatio negative num den ≠ nan := by
  rw [ofRatio]
  split
  · exact Binary64.noConfusion
  · exact Binary64.noConfusion

theorem ofInt_ne_nan (z : Int) : ofInt z ≠ nan := by
  rw [ofInt, ofQuanta]
  exact ofRatio_ne_nan _ _ _

/-- It is finite iff it is rounded below the limit. -/
theorem isFinite_ofRatio (negative : Bool) (num den : Nat) :
    (ofRatio negative num den).isFinite = decide (nearest num den < limit) := by
  rw [ofRatio]
  split <;> rename_i h <;> simp [isFinite, h]

/-- The quotients that are in range. -/
theorem nearest_mul_one_lt_limit_iff {n den : Nat} (pos : 0 < den) :
    nearest (n * one) den < limit ↔ n < (2 ^ 1024 - 2 ^ 970) * den := by
  rw [@limit_eq (1024 + 1074) rfl, one]
  exact @nearest_mul_lt_iff n den 1024 970 1074 pos rfl

/-- The integers that no number can hold. -/
theorem ofInt?_eq_none_iff (z : Int) : ofInt? z = none ↔ 2 ^ 1024 - 2 ^ 970 ≤ z.natAbs := by
  have inRange : nearest (z * (one : Int)).natAbs 1 < limit ↔ z.natAbs < 2 ^ 1024 - 2 ^ 970 := by
    have whole := @nearest_mul_one_lt_limit_iff z.natAbs 1 Nat.one_pos
    generalize 2 ^ 1024 - 2 ^ 970 = bound at whole ⊢
    rwa [Nat.mul_one, ← Int.natAbs_natCast one, ← Int.natAbs_mul] at whole
  simp only [ofInt?, ofInt, ofQuanta, isFinite_ofRatio, inRange, decide_eq_true_eq,
    ite_eq_right_iff, reduceCtorEq, imp_false, Nat.not_lt]

/-! ## Integers that the format holds -/

theorem one_eq {e : Nat} (h : e = 1074) : one = 2 ^ e := by rw [one, h]

theorem one_pos : 0 < one := by
  obtain ⟨e, he⟩ : ∃ e, e = 1074 := ⟨_, rfl⟩
  rw [one_eq he]
  exact Nat.two_pow_pos e

/-- Small integers fit. -/
theorem representable_mul_one {n : Nat} (h : n ≤ 2 ^ 53) : Representable (n * one) := by
  obtain ⟨e, he⟩ : ∃ e, e = 1074 := ⟨_, rfl⟩
  obtain ⟨k, hk⟩ : ∃ k, k = 2098 := ⟨_, rfl⟩
  rw [one_eq he]
  refine ⟨?_, unit_dvd_mul_two_pow h⟩
  rw [limit_eq hk]
  calc n * 2 ^ e ≤ 2 ^ 53 * 2 ^ e := Nat.mul_le_mul_right _ h
    _ = 2 ^ (53 + e) := (Nat.pow_add 2 53 e).symm
    _ < 2 ^ k := Nat.pow_lt_pow_right (by decide) (by omega)

/-- The number of the format that a natural number is. -/
theorem ofInt?_natCast {n : Nat} (h : n ≤ 2 ^ 53) :
    ofInt? n = some (finite false (n * one) (representable_mul_one h)) := by
  have quanta : ((n : Int) * (one : Int)).natAbs = n * one := by
    rw [← Int.natCast_mul, Int.natAbs_natCast]
  have sign : decide ((n : Int) * (one : Int) < 0) = false := by
    rw [← Int.natCast_mul]
    exact decide_eq_false (Int.not_lt.2 (Int.natCast_nonneg _))
  have whole : ofInt n = finite false (n * one) (representable_mul_one h) := by
    rw [ofInt, ofQuanta, quanta, sign, ofRatio_of_representable]
  rw [ofInt?, whole]
  rfl

theorem finite_le_finite_iff {m n : Nat} (hm : Representable m) (hn : Representable n) :
    finite false m hm ≤ finite false n hn ↔ m ≤ n := by
  have : finite false m hm ≤ finite false n hn ↔ decide ((m : Int) ≤ (n : Int)) = true := Iff.rfl
  rw [this, decide_eq_true_eq, Int.ofNat_le]

/-- Natural numbers up to `2 ^ 53` have the same order as the numbers that they are. -/
theorem le_iff_of_ofInt? {m n : Nat} (hm : m ≤ 2 ^ 53) (hn : n ≤ 2 ^ 53) {a b : Binary64}
    (ha : ofInt? m = some a) (hb : ofInt? n = some b) : a ≤ b ↔ m ≤ n := by
  rw [ofInt?_natCast hm] at ha
  rw [ofInt?_natCast hn] at hb
  obtain rfl := Option.some.inj ha
  obtain rfl := Option.some.inj hb
  rw [finite_le_finite_iff, Nat.mul_le_mul_right_iff one_pos]

end Carom.Binary64
