import Carom.Binary64.Basic

/-!
# Rounding to the nearest number

A quotient of naturals, as a count of quanta, is rounded to the nearest count
that has at most 53 significant bits, a half to the even neighbour (`nearest`).
The last bit that is kept is worth `unit (num / den)`, so the quotient is divided
by that unit, rounded to a whole number and multiplied again. `ofRatio` turns the
rounded count into a number, infinite where it is out of range.

`unit_dvd_nearest` says that the rounded count has 53 significant bits;
`nearest_of_dvd` that a quotient that fits already is left as it is.
-/

namespace Carom.Binary64

/-- The whole number nearest to `num / den`, a half to the even one. -/
def roundDiv (num den : Nat) : Nat :=
  let whole := num / den
  let rest := 2 * (num % den)
  if rest < den ∨ rest = den ∧ whole % 2 = 0 then whole else whole + 1

/-- The count of 53 significant bits nearest to `num / den`, a half to the even
    one. -/
def nearest (num den : Nat) : Nat :=
  let u := unit (num / den)
  roundDiv num (den * u) * u

theorem roundDiv_le (num den : Nat) : roundDiv num den ≤ num / den + 1 := by
  unfold roundDiv
  dsimp only
  split <;> omega

theorem roundDiv_of_dvd {num den : Nat} (h : den ∣ num) (pos : 0 < den) :
    roundDiv num den = num / den := by
  simp [roundDiv, Nat.mod_eq_zero_of_dvd h, pos]

/-- At most `2 ^ 53` units have at most 53 significant bits. -/
theorem unit_dvd_mul_two_pow {m s : Nat} (h : m ≤ 2 ^ 53) : unit (m * 2 ^ s) ∣ m * 2 ^ s := by
  rcases Nat.eq_zero_or_pos m with rfl | pos
  · simp
  have ne : m * 2 ^ s ≠ 0 := Nat.mul_ne_zero (by omega) (by simp)
  rcases Nat.lt_or_eq_of_le h with lt | rfl
  · have bits : (m * 2 ^ s).log2 < 53 + s := by
      rw [Nat.log2_lt ne, Nat.pow_add]
      exact Nat.mul_lt_mul_of_pos_right lt (Nat.two_pow_pos s)
    exact Nat.dvd_trans (Nat.pow_dvd_pow 2 (by omega)) (Nat.dvd_mul_left _ _)
  · rw [← Nat.pow_add]
    exact Nat.pow_dvd_pow 2 (by rw [Nat.log2_two_pow]; omega)

/-- A quotient holds fewer than `2 ^ 53` of its own units. -/
theorem div_unit_lt (n : Nat) : n / unit n < 2 ^ 53 := by
  rw [unit, Nat.div_lt_iff_lt_mul (Nat.two_pow_pos _), ← Nat.pow_add]
  exact Nat.lt_of_lt_of_le Nat.lt_log2_self (Nat.pow_le_pow_right (by decide) (by omega))

theorem unit_dvd_nearest (num den : Nat) : unit (nearest num den) ∣ nearest num den := by
  refine unit_dvd_mul_two_pow (Nat.le_trans (roundDiv_le _ _) ?_)
  rw [← Nat.div_div_eq_div_mul]
  exact div_unit_lt _

theorem nearest_of_dvd {num den : Nat} (pos : 0 < den) (whole : den ∣ num)
    (fits : unit (num / den) ∣ num / den) : nearest num den = num / den := by
  have h : den * unit (num / den) ∣ num := by
    obtain ⟨k, rfl⟩ := whole
    rw [Nat.mul_div_cancel_left _ pos] at fits ⊢
    exact Nat.mul_dvd_mul_left den fits
  rw [nearest, roundDiv_of_dvd h (Nat.mul_pos pos (Nat.two_pow_pos _)), ← Nat.div_div_eq_div_mul]
  exact Nat.div_mul_cancel fits

/-- The number nearest to `num / den` quanta, a half to the even one; infinite
    from half a unit below the limit. -/
def ofRatio (negative : Bool) (num den : Nat) : Binary64 :=
  if h : nearest num den < limit then
    finite negative (nearest num den) ⟨h, unit_dvd_nearest num den⟩
  else
    infinite negative

theorem ofRatio_of_representable (negative : Bool) {n : Nat} (h : Representable n) :
    ofRatio negative n 1 = finite negative n h := by
  have e : nearest n 1 = n := by
    have := nearest_of_dvd Nat.one_pos (Nat.one_dvd n) (by simpa using h.2)
    simpa using this
  simp [ofRatio, e, h.1]

end Carom.Binary64
