import Carom.Binary64.Decimal
import Carom.Proofs.Binary64.Range

/-!
# Reading decimals

Rounding sees the value of a quotient only, not the fraction that it is given as
(`nearest_congr`). So a decimal is the number that its count of `10 ^ -1074` reads as
(`ofDecimal_of_readsAs`); the exponents that are not computed are out of range for sure.
-/

namespace Carom.Binary64

/-- A quotient may be reduced before it is rounded. -/
theorem roundDiv_mul_left {k : Nat} (pos : 0 < k) (a b : Nat) :
    roundDiv (k * a) (k * b) = roundDiv a b := by
  have lt : 2 * (k * (a % b)) < k * b ↔ 2 * (a % b) < b := by
    rw [Nat.mul_left_comm, Nat.mul_lt_mul_left pos]
  have eq : 2 * (k * (a % b)) = k * b ↔ 2 * (a % b) = b := by
    rw [Nat.mul_left_comm, Nat.mul_right_inj (Nat.ne_of_gt pos)]
  simp only [roundDiv, Nat.mul_div_mul_left _ _ pos, Nat.mul_mod_mul_left, lt, eq]

/-- Equal quotients are rounded to the same. -/
theorem roundDiv_congr {a b c d : Nat} (hb : 0 < b) (hd : 0 < d) (h : a * d = c * b) :
    roundDiv a b = roundDiv c d :=
  calc roundDiv a b = roundDiv (d * a) (d * b) := (roundDiv_mul_left hd a b).symm
    _ = roundDiv (b * c) (b * d) := by rw [Nat.mul_comm d a, h, Nat.mul_comm c, Nat.mul_comm d]
    _ = roundDiv c d := roundDiv_mul_left hb c d

/-- Equal quotients are rounded to the same count. -/
theorem nearest_congr {a b c d : Nat} (hb : 0 < b) (hd : 0 < d) (h : a * d = c * b) :
    nearest a b = nearest c d := by
  have whole : a / b = c / d :=
    calc a / b = d * a / (d * b) := (Nat.mul_div_mul_left a b hd).symm
      _ = b * c / (b * d) := by rw [Nat.mul_comm d a, h, Nat.mul_comm c, Nat.mul_comm d]
      _ = c / d := Nat.mul_div_mul_left c d hb
  have pos : 0 < unit (c / d) := Nat.two_pow_pos _
  have scaled : a * (d * unit (c / d)) = c * (b * unit (c / d)) := by
    rw [← Nat.mul_assoc, h, Nat.mul_assoc]
  rw [nearest, nearest, whole,
    roundDiv_congr (Nat.mul_pos hb pos) (Nat.mul_pos hd pos) scaled]

/-- What is less than half a quantum is rounded to nothing. -/
theorem nearest_eq_zero {num den : Nat} (h : 2 * num < den) : nearest num den = 0 := by
  have whole : num / den = 0 := Nat.div_eq_of_lt (by omega)
  have rest : num % den = num := Nat.mod_eq_of_lt (by omega)
  have unit_zero : unit 0 = 1 := rfl
  simp [nearest, roundDiv, whole, rest, unit_zero, h]

theorem quantumTenths_eq {e : Nat} (h : e = 1074) : quantumTenths = 5 ^ e := by
  rw [quantumTenths, h]

/-- A quantum is worth so many `10 ^ -1074` that a whole is `10 ^ 1074` of them. -/
theorem one_mul_quantumTenths {e : Nat} (h : e = 1074) : one * quantumTenths = 10 ^ e := by
  rw [one_eq h, quantumTenths_eq h, ← Nat.mul_pow]

theorem two_pow_le_ten_pow (e : Nat) : 2 ^ (3 * e) ≤ 10 ^ e := by
  rw [Nat.pow_mul]
  exact Nat.pow_le_pow_left (by decide) e

/-- With an exponent beyond 400 a decimal is out of range. -/
theorem limit_le_nearest {digits e : Nat} (ne : digits ≠ 0) (large : 400 < e) :
    limit ≤ nearest (digits * 10 ^ e * one) 1 := by
  obtain ⟨k, hk⟩ : ∃ k, k = 1074 := ⟨_, rfl⟩
  obtain ⟨j, hj⟩ : ∃ j, j = 2044 := ⟨_, rfl⟩
  rw [@limit_eq (j + 54) (by omega)]
  refine le_nearest_of_le ?_
  rw [Nat.div_one]
  calc 2 ^ (j + 54) ≤ 2 ^ (3 * e + k) := Nat.pow_le_pow_right (by decide) (by omega)
    _ = 2 ^ (3 * e) * 2 ^ k := Nat.pow_add 2 _ _
    _ ≤ 10 ^ e * 2 ^ k := Nat.mul_le_mul_right _ (two_pow_le_ten_pow e)
    _ ≤ digits * 10 ^ e * 2 ^ k :=
      Nat.mul_le_mul_right _ (Nat.le_mul_of_pos_left _ (Nat.pos_of_ne_zero ne))
    _ = digits * 10 ^ e * one := by rw [one_eq hk]

/-- With an exponent that is less by 400 than what the digits make up for, nothing is left. -/
theorem nearest_eq_zero_of_log2_lt {digits e : Nat} (small : 400 + digits.log2 < e) :
    nearest (digits * one) (10 ^ (e + 1)) = 0 := by
  obtain ⟨k, hk⟩ : ∃ k, k = 1074 := ⟨_, rfl⟩
  refine nearest_eq_zero ?_
  calc 2 * (digits * one) = digits * 2 ^ (k + 1) := by
        rw [one_eq hk, Nat.pow_succ]
        ac_rfl
    _ < 2 ^ (digits.log2 + 1) * 2 ^ (k + 1) :=
      Nat.mul_lt_mul_of_pos_right Nat.lt_log2_self (Nat.two_pow_pos _)
    _ = 2 ^ (digits.log2 + 1 + (k + 1)) := (Nat.pow_add 2 _ _).symm
    _ ≤ 2 ^ (3 * (e + 1)) := Nat.pow_le_pow_right (by decide) (by omega)
    _ ≤ 10 ^ (e + 1) := two_pow_le_ten_pow (e + 1)

/-- A decimal is always a number. -/
theorem ofDecimal_ne_nan (negative : Bool) (digits : Nat) (exponent : Int) :
    ofDecimal negative digits exponent ≠ nan := by
  rw [ofDecimal.eq_def]
  split
  · exact Binary64.noConfusion
  · split
    · split
      · exact Binary64.noConfusion
      · exact ofRatio_ne_nan _ _ _
    · split
      · exact Binary64.noConfusion
      · exact ofRatio_ne_nan _ _ _

/-- The decimals that are in range. -/
theorem isFinite_ofDecimal (negative : Bool) (digits : Nat) (exponent : Int) :
    (ofDecimal negative digits exponent).isFinite ↔
      digits * 10 ^ exponent.toNat < (2 ^ 1024 - 2 ^ 970) * 10 ^ (-exponent).toNat := by
  have ten_pow_pos (e : Nat) : 0 < 10 ^ e := Nat.pow_pos (by decide)
  have inRange := @nearest_mul_one_lt_limit_iff (digits * 10 ^ exponent.toNat)
    (10 ^ (-exponent).toNat) (ten_pow_pos _)
  refine Iff.trans ?_ inRange
  rw [ofDecimal.eq_def]
  split
  · -- Zero is in range at any exponent.
    rename_i zero
    rw [zero, Nat.zero_mul, Nat.zero_mul, nearest_eq_zero (Nat.mul_zero 2 ▸ ten_pow_pos _)]
    exact iff_of_true rfl limit_pos
  rename_i ne
  split
  · rename_i e
    have toNat : (Int.ofNat e).toNat = e := rfl
    have neg_toNat : (-Int.ofNat e).toNat = 0 := by
      rw [Int.ofNat_eq_natCast]
      omega
    rw [toNat, neg_toNat, Nat.pow_zero]
    split
    · -- A decimal that large is out of range at once, and its power is never computed.
      rename_i large
      exact iff_of_false Bool.false_ne_true (Nat.not_lt.2 (limit_le_nearest ne large))
    · rw [isFinite_ofRatio, decide_eq_true_iff]
  · rename_i e
    have toNat : (Int.negSucc e).toNat = 0 := rfl
    have neg_toNat : (-Int.negSucc e).toNat = e + 1 := rfl
    rw [toNat, neg_toNat, Nat.pow_zero, Nat.mul_one]
    split
    · -- And one that small is zero at once.
      rename_i small
      rw [nearest_eq_zero_of_log2_lt small]
      exact iff_of_true rfl limit_pos
    · rw [isFinite_ofRatio, decide_eq_true_iff]

/-- A decimal is the number that its count of `10 ^ -1074` reads as. -/
theorem ofDecimal_of_readsAs {quanta : Nat} (fits : Representable quanta) (ne : quanta ≠ 0)
    {digits power : Nat} (reads : readsAs quanta (digits * 10 ^ power)) (negative : Bool) :
    ofDecimal negative digits ((power : Int) - 1074) = finite negative quanta fits := by
  have rounded : nearest (digits * 10 ^ power) quantumTenths = quanta := by
    simpa [readsAs] using reads
  have digits_ne : digits ≠ 0 := by
    rintro rfl
    rw [Nat.zero_mul, nearest_eq_zero (by simpa using quantumTenths_pos)] at rounded
    exact ne rounded.symm
  have whole {num den : Nat} (h : nearest num den = quanta) :
      ofRatio negative num den = finite negative quanta fits := by
    subst h
    rw [ofRatio, dif_pos fits.1]
  -- The exponent has a name of its own, so that no power of it is computed.
  obtain ⟨k, hk⟩ : ∃ k, k = 1074 := ⟨_, rfl⟩
  rw [ofDecimal.eq_def, if_neg digits_ne]
  split
  · rename_i e exponent
    obtain rfl : power = k + e := by
      rw [Int.ofNat_eq_natCast] at exponent
      omega
    have same : nearest (digits * 10 ^ e * one) 1 = quanta := by
      rw [← rounded]
      refine nearest_congr Nat.one_pos quantumTenths_pos ?_
      rw [Nat.mul_assoc, one_mul_quantumTenths hk, Nat.mul_assoc, ← Nat.pow_add, Nat.mul_one,
        Nat.add_comm]
    -- A decimal that large would not fit.
    have range : ¬400 < e := fun large =>
      Nat.not_lt.2 (limit_le_nearest digits_ne large) (same ▸ fits.1)
    rw [if_neg range, whole same]
  · rename_i e exponent
    have le : e + 1 + power = k := by omega
    have same : nearest (digits * one) (10 ^ (e + 1)) = quanta := by
      rw [← rounded]
      refine nearest_congr (Nat.pow_pos (by decide)) quantumTenths_pos ?_
      rw [Nat.mul_assoc, one_mul_quantumTenths hk, Nat.mul_assoc, ← Nat.pow_add, ← le,
        Nat.add_comm]
    -- And one that small would be zero.
    have range : ¬400 + digits.log2 < e := fun small =>
      ne (same.symm.trans (nearest_eq_zero_of_log2_lt small))
    rw [if_neg range, whole same]

end Carom.Binary64
