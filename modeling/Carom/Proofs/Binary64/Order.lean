import Carom.Proofs.Binary64.Range

/-!
# The order of the format

Numbers that are not nan are ordered by their positions, which is a total order
(`lt_iff_not_le`). Rounding does not pass a count that fits (`le_nearest`, `nearest_le`), so a
sum does not fall below a summand if the other one is not negative (`le_add_of_nonneg`), also
where it is rounded or overflows.

A sum and a product are nan only where they have no value, at infinities (`add_eq_nan_iff`,
`mul_eq_nan_iff`).
-/

namespace Carom.Binary64

variable {a b : Binary64}

/-! ## Positions -/

/-- All but nan have a position. -/
theorem exists_position? (h : a ≠ nan) : ∃ x, a.position? = some x := by
  cases a with
  | nan => exact absurd rfl h
  | infinite s => exact ⟨_, rfl⟩
  | finite s m fits => exact ⟨_, rfl⟩

theorem compareWith_iff {r : Int → Int → Bool} :
    compareWith r a b ↔ ∃ x y, a.position? = some x ∧ b.position? = some y ∧ r x y := by
  rw [compareWith]
  cases a.position? <;> cases b.position? <;> simp

/-- Numbers are compared by their positions. -/
theorem le_iff : a ≤ b ↔ ∃ x y, a.position? = some x ∧ b.position? = some y ∧ x ≤ y := by
  have compared : a ≤ b ↔ compareWith (fun x y => decide (x ≤ y)) a b := Iff.rfl
  simp only [compared, compareWith_iff, decide_eq_true_eq]

theorem lt_iff : a < b ↔ ∃ x y, a.position? = some x ∧ b.position? = some y ∧ x < y := by
  have compared : a < b ↔ compareWith (fun x y => decide (x < y)) a b := Iff.rfl
  simp only [compared, compareWith_iff, decide_eq_true_eq]

/-- Equal numbers have the same position. -/
theorem beq_iff : (a == b) = true ↔ ∃ x, a.position? = some x ∧ b.position? = some x := by
  have compared : (a == b) = true ↔ compareWith (· == ·) a b := Iff.rfl
  simp only [compared, compareWith_iff, beq_iff_eq]
  constructor
  · rintro ⟨x, y, hx, hy, rfl⟩
    exact ⟨x, hx, hy⟩
  · rintro ⟨x, hx, hy⟩
    exact ⟨x, x, hx, hy, rfl⟩

section

variable {x y : Int} (hx : a.position? = some x) (hy : b.position? = some y)
include hx hy

theorem le_iff_of_position? : a ≤ b ↔ x ≤ y := by
  simp [le_iff, hx, hy]

theorem lt_iff_of_position? : a < b ↔ x < y := by
  simp [lt_iff, hx, hy]

theorem beq_iff_of_position? : (a == b) = true ↔ x = y := by
  simp only [beq_iff, hx, hy, Option.some.injEq, exists_eq_left']
  exact eq_comm

end

/-- A number other than nan equals itself. -/
theorem beq_self (h : a ≠ nan) : a == a := by
  obtain ⟨x, hx⟩ := exists_position? h
  exact beq_iff.2 ⟨x, hx, hx⟩

theorem beq_of_beq_of_beq {c : Binary64} (ha : c == a) (hb : c == b) : a == b := by
  obtain ⟨x, hc, hx⟩ := beq_iff.1 ha
  obtain ⟨y, hc', hy⟩ := beq_iff.1 hb
  obtain rfl := Option.some.inj (hc.symm.trans hc')
  exact beq_iff.2 ⟨x, hx, hy⟩

/-- Nan is not compared. -/
theorem ne_nan_of_le (h : a ≤ b) : a ≠ nan ∧ b ≠ nan := by
  obtain ⟨x, y, hx, hy, -⟩ := le_iff.1 h
  constructor
  · rintro rfl
    cases hx
  · rintro rfl
    cases hy

theorem le_of_lt (h : a < b) : a ≤ b := by
  obtain ⟨x, y, hx, hy, lt⟩ := lt_iff.1 h
  exact le_iff.2 ⟨x, y, hx, hy, Int.le_of_lt lt⟩

theorem le_refl (h : a ≠ nan) : a ≤ a := by
  obtain ⟨x, hx⟩ := exists_position? h
  exact (le_iff_of_position? hx hx).2 (Int.le_refl x)

/-- The order is total but for nan. -/
theorem lt_iff_not_le (ha : a ≠ nan) (hb : b ≠ nan) : a < b ↔ ¬b ≤ a := by
  obtain ⟨x, hx⟩ := exists_position? ha
  obtain ⟨y, hy⟩ := exists_position? hb
  rw [lt_iff_of_position? hx hy, le_iff_of_position? hy hx, Int.not_le]

theorem not_lt_of_le (h : b ≤ a) : ¬a < b :=
  fun lt => (lt_iff_not_le (ne_nan_of_le h).2 (ne_nan_of_le h).1).1 lt h

/-! ## Rounding and the order -/

/-- Rounding stays below a whole bound. -/
theorem roundDiv_le_of_le {num den k : Nat} (pos : 0 < den) (h : num ≤ k * den) :
    roundDiv num den ≤ k := by
  have whole : num / den ≤ k := Nat.div_le_of_le_mul (Nat.mul_comm k den ▸ h)
  rcases Nat.lt_or_eq_of_le whole with less | same
  · exact Nat.le_trans (roundDiv_le num den) less
  · -- The quotient is `k` itself, so there is nothing to round.
    have exact : num = k * den :=
      Nat.le_antisymm h (same ▸ Nat.div_mul_le_self num den)
    rw [roundDiv_of_dvd (exact ▸ Nat.dvd_mul_left den k) pos]
    exact whole

/-- Units of smaller numbers go into those of greater ones. -/
theorem unit_dvd_unit {m n : Nat} (h : m.log2 ≤ n.log2) : unit m ∣ unit n :=
  Nat.pow_dvd_pow 2 (Nat.sub_le_sub_right h 52)

theorem log2_le_log2 {m n : Nat} (h : m ≤ n) : m.log2 ≤ n.log2 := by
  rcases Nat.eq_zero_or_pos m with rfl | pos
  · simp
  · have ne : n ≠ 0 := by omega
    exact (Nat.le_log2 ne).2 (Nat.le_trans (Nat.log2_self_le (Nat.ne_of_gt pos)) h)

/-- There is a multiple of the unit between a count that fits and one that is not less. -/
theorem exists_mul_unit_between {n q : Nat} (fits : unit n ∣ n) (h : n ≤ q) :
    ∃ k, n ≤ k * unit q ∧ k * unit q ≤ q := by
  rcases Nat.lt_or_eq_of_le (log2_le_log2 h) with less | same
  · -- The power of two that is the first bit of the greater count.
    have ne : q ≠ 0 := by
      rintro rfl
      simp at less
    obtain ⟨k, eq⟩ : unit q ∣ 2 ^ q.log2 := Nat.pow_dvd_pow 2 (Nat.sub_le _ 52)
    rw [Nat.mul_comm] at eq
    refine ⟨k, ?_, eq ▸ Nat.log2_self_le ne⟩
    calc n ≤ 2 ^ (n.log2 + 1) := Nat.le_of_lt Nat.lt_log2_self
      _ ≤ 2 ^ q.log2 := Nat.pow_le_pow_right (by decide) less
      _ = k * unit q := eq
  · -- The unit is the same, and the lesser count is a multiple of it.
    obtain ⟨k, eq⟩ : unit q ∣ n := by rwa [unit, ← same, ← unit]
    rw [Nat.mul_comm] at eq
    exact ⟨k, Nat.le_of_eq eq, eq ▸ h⟩

/-- Rounding does not fall below a count that fits. -/
theorem le_nearest {num den n : Nat} (fits : unit n ∣ n) (h : n ≤ num / den) :
    n ≤ nearest num den := by
  obtain ⟨k, le, below⟩ := exists_mul_unit_between fits h
  have units : k ≤ roundDiv num (den * unit (num / den)) := by
    refine Nat.le_trans ?_ (le_roundDiv _ _)
    rw [← Nat.div_div_eq_div_mul]
    exact (Nat.le_div_iff_mul_le (Nat.two_pow_pos _)).2 below
  exact Nat.le_trans le (Nat.mul_le_mul_right _ units)

/-- Nor does it pass one from below. -/
theorem nearest_le {num den n : Nat} (pos : 0 < den) (fits : unit n ∣ n) (h : num ≤ n * den) :
    nearest num den ≤ n := by
  have quotient : num / den ≤ n := Nat.div_le_of_le_mul (Nat.mul_comm n den ▸ h)
  obtain ⟨k, eq⟩ := Nat.dvd_trans (unit_dvd_unit (log2_le_log2 quotient)) fits
  have units : roundDiv num (den * unit (num / den)) ≤ k := by
    refine roundDiv_le_of_le (Nat.mul_pos pos (Nat.two_pow_pos _)) ?_
    calc num ≤ n * den := h
      _ = k * (den * unit (num / den)) := by
        rw [eq]
        ac_rfl
  calc nearest num den ≤ k * unit (num / den) := Nat.mul_le_mul_right _ units
    _ = n := by rw [Nat.mul_comm, ← eq]

/-- A rounded quotient stands at the rounded count, or at the end of the range. -/
theorem position?_ofRatio (negative : Bool) (num den : Nat) :
    (ofRatio negative num den).position? =
      some (signed negative (min (nearest num den) limit)) := by
  rw [ofRatio]
  split
  · rename_i inside
    rw [Nat.min_eq_left (Nat.le_of_lt inside)]
    rfl
  · rename_i outside
    rw [Nat.min_eq_right (Nat.not_lt.1 outside)]
    rfl

/-- A count of quanta that is at least a number is so after it is rounded. -/
theorem le_ofQuanta {s : Bool} {m : Nat} (fits : Representable m) {z : Int}
    (h : signed s m ≤ z) : finite s m fits ≤ ofQuanta z := by
  refine (le_iff_of_position? rfl (position?_ofRatio _ _ _)).2 ?_
  rcases Int.lt_or_le z 0 with below | above
  · rw [decide_eq_true below]
    cases s with
    | false => exact absurd (Int.lt_of_le_of_lt h below) (Int.not_lt.2 (Int.natCast_nonneg m))
    | true =>
      -- Both are negative: the magnitude does not grow beyond that of the number.
      simp only [signed, if_true] at h ⊢
      have size : z.natAbs ≤ m := by omega
      have rounded : nearest z.natAbs 1 ≤ m :=
        nearest_le Nat.one_pos fits.2 (by rwa [Nat.mul_one])
      omega
  · rw [decide_eq_false (Int.not_lt.2 above)]
    cases s with
    | true =>
      simp only [signed, if_true, Bool.false_eq_true, if_false]
      omega
    | false =>
      simp only [signed, Bool.false_eq_true, if_false] at h ⊢
      have rounded : m ≤ nearest z.natAbs 1 :=
        le_nearest fits.2 (by rw [Nat.div_one]; omega)
      have inside := fits.1
      omega

/-! ## Signs -/

theorem signed_eq_zero_iff {s : Bool} {m : Nat} : signed s m = 0 ↔ m = 0 := by
  rw [← Int.natAbs_eq_zero, natAbs_signed]

/-- Only zero is not negative with a negative sign. -/
theorem signed_nonneg_iff {s : Bool} {m : Nat} : 0 ≤ signed s m ↔ s = false ∨ m = 0 := by
  cases s with
  | false => exact iff_of_true (Int.natCast_nonneg m) (.inl rfl)
  | true =>
    simp only [signed, if_true, Bool.true_eq_false, false_or]
    omega

theorem signed_not (s : Bool) (m : Nat) : signed (!s) m = -signed s m := by
  cases s <;> simp [signed]

/-- No position is beyond the infinities. -/
theorem natAbs_le_limit {x : Int} (h : a.position? = some x) : x.natAbs ≤ limit := by
  cases a with
  | nan => cases h
  | infinite s =>
    obtain rfl := Option.some.inj h
    exact Nat.le_of_eq (natAbs_signed s limit)
  | finite s m fits =>
    obtain rfl := Option.some.inj h
    rw [natAbs_signed]
    exact Nat.le_of_lt fits.1

/-- What is neither nan nor finite is an infinity. -/
theorem isFinite_eq_false_iff (h : a ≠ nan) :
    a.isFinite = false ↔ ∃ s, a = infinite s := by
  cases a with
  | nan => exact absurd rfl h
  | infinite s => exact iff_of_true rfl ⟨s, rfl⟩
  | finite s m fits => simp [isFinite]

/-- Infinity is the greatest number. -/
theorem le_infinite (h : a ≠ nan) : a ≤ infinite false := by
  obtain ⟨x, hx⟩ := exists_position? h
  have inside := natAbs_le_limit hx
  refine (le_iff_of_position? hx rfl).2 ?_
  simp only [signed, Bool.false_eq_true, if_false]
  omega

/-- And minus infinity the least. -/
theorem infinite_le (h : a ≠ nan) : infinite true ≤ a := by
  obtain ⟨x, hx⟩ := exists_position? h
  have inside := natAbs_le_limit hx
  refine (le_iff_of_position? rfl hx).2 ?_
  simp only [signed, if_true]
  omega

theorem zero_le_finite_iff {s : Bool} {m : Nat} {fits : Representable m} :
    Binary64.zero ≤ finite s m fits ↔ s = false ∨ m = 0 :=
  (le_iff_of_position? rfl rfl).trans signed_nonneg_iff

theorem zero_le_infinite_iff {s : Bool} : Binary64.zero ≤ infinite s ↔ s = false := by
  have positions : Binary64.zero ≤ infinite s ↔ 0 ≤ signed s limit := le_iff_of_position? rfl rfl
  rw [positions, signed_nonneg_iff]
  exact or_iff_left (Nat.ne_of_gt limit_pos)

theorem finite_beq_zero {s : Bool} {m : Nat} {fits : Representable m} :
    (finite s m fits == Binary64.zero) = true ↔ m = 0 := by
  rw [beq_iff_of_position? rfl rfl]
  exact signed_eq_zero_iff

/-! ## Sums -/

section

variable {s t : Bool} {m n : Nat} {hm : Representable m} {hn : Representable n}

theorem infinite_add_infinite :
    infinite s + infinite t = if s = t then infinite s else nan := rfl

theorem infinite_add_finite : infinite s + finite t n hn = infinite s := rfl

theorem finite_add_infinite : finite s m hm + infinite t = infinite t := rfl

theorem finite_add_finite : finite s m hm + finite t n hn =
    if signed s m + signed t n = 0 then finite (s && t) 0 representable_zero
    else ofQuanta (signed s m + signed t n) := rfl

/-- Finite numbers have a sum. -/
theorem finite_add_finite_ne_nan : finite s m hm + finite t n hn ≠ nan := by
  rw [finite_add_finite]
  split
  · exact Binary64.noConfusion
  · exact ofRatio_ne_nan _ _ _

end

/-- A sum has no value only where a summand is nan, or infinities of opposite signs meet. -/
theorem add_eq_nan_iff :
    a + b = nan ↔ a = nan ∨ b = nan ∨ ∃ s, a = infinite s ∧ b = infinite (!s) := by
  cases a with
  | nan => exact iff_of_true rfl (.inl rfl)
  | infinite s =>
    cases b with
    | nan => exact iff_of_true rfl (.inr (.inl rfl))
    | infinite t => cases s <;> cases t <;> simp [infinite_add_infinite]
    | finite t n fits => simp [infinite_add_finite]
  | finite s m hm =>
    cases b with
    | nan => exact iff_of_true rfl (.inr (.inl rfl))
    | infinite t => simp [finite_add_infinite]
    | finite t n hn => simp [finite_add_finite_ne_nan]

/-- A sum is not below a summand if the other one is not negative. -/
theorem le_add_of_nonneg (nonneg : Binary64.zero ≤ b) (h : a + b ≠ nan) : a ≤ a + b := by
  cases a with
  | nan => exact absurd rfl h
  | infinite s =>
    cases b with
    | nan => exact absurd rfl h
    | infinite t =>
      rw [infinite_add_infinite] at h ⊢
      split at h
      · rw [if_pos ‹s = t›]
        exact le_refl Binary64.noConfusion
      · exact absurd rfl h
    | finite t n fits => exact le_refl Binary64.noConfusion
  | finite s m hm =>
    cases b with
    | nan => exact absurd rfl h
    | infinite t =>
      -- An infinite summand that is not negative takes the sum above anything.
      obtain rfl := zero_le_infinite_iff.1 nonneg
      exact le_infinite Binary64.noConfusion
    | finite t n hn =>
      have above : signed s m ≤ signed s m + signed t n := by
        have := signed_nonneg_iff.2 (zero_le_finite_iff.1 nonneg)
        omega
      rw [finite_add_finite]
      split
      · -- The sum is zero, and the sign of a zero makes no difference to the order.
        rename_i vanishes
        rw [vanishes] at above
        have same : signed (s && t) 0 = 0 := signed_eq_zero_iff.2 rfl
        exact (le_iff_of_position? rfl rfl).2 (Int.le_trans above (Int.le_of_eq same.symm))
      · exact le_ofQuanta hm above

/-! ## Differences -/

theorem sub_eq_add_neg (a b : Binary64) : a - b = a + b.neg := rfl

theorem neg_eq_nan_iff : a.neg = nan ↔ a = nan := by
  cases a <;> simp [Binary64.neg]

theorem neg_eq_infinite_iff {s : Bool} : a.neg = infinite s ↔ a = infinite (!s) := by
  cases a with
  | nan => simp [Binary64.neg]
  | infinite t => cases s <;> cases t <;> simp [Binary64.neg]
  | finite t n fits => simp [Binary64.neg]

/-- A difference has no value only where one of the two is nan, or both are the same infinity. -/
theorem sub_eq_nan_iff :
    a - b = nan ↔ a = nan ∨ b = nan ∨ ∃ s, a = infinite s ∧ b = infinite s := by
  simp only [sub_eq_add_neg, add_eq_nan_iff, neg_eq_nan_iff, neg_eq_infinite_iff, Bool.not_not]

theorem abs_ofQuanta (z : Int) : (ofQuanta z).abs = ofRatio false z.natAbs 1 := by
  rw [ofQuanta, ofRatio, ofRatio]
  split <;> rfl

/-- The distance of two numbers does not depend on their order. -/
theorem abs_sub_comm (a b : Binary64) : (a - b).abs = (b - a).abs := by
  rw [sub_eq_add_neg, sub_eq_add_neg]
  cases a with
  | nan => cases b <;> rfl
  | infinite s =>
    cases b with
    | infinite t => cases s <;> cases t <;> rfl
    | nan => rfl
    | finite t n hn => rfl
  | finite s m hm =>
    cases b with
    | nan => rfl
    | infinite t => rfl
    | finite t n hn =>
      have opposite : signed t n + signed (!s) m = -(signed s m + signed (!t) n) := by
        rw [signed_not, signed_not]
        omega
      simp only [Binary64.neg, finite_add_finite, opposite, Int.neg_eq_zero]
      split
      · rfl
      · rw [abs_ofQuanta, abs_ofQuanta, Int.natAbs_neg]

/-- Numbers of which one is less have a difference. -/
theorem sub_ne_nan_of_lt (h : a < b) : b - a ≠ nan := by
  obtain ⟨x, y, hx, hy, lt⟩ := lt_iff.1 h
  rw [Ne, sub_eq_nan_iff]
  rintro (rfl | rfl | ⟨s, rfl, rfl⟩)
  · cases hy
  · cases hx
  · cases hx.symm.trans hy
    exact Int.lt_irrefl _ lt

/-- The greater of two numbers is not below the other one. -/
theorem zero_le_sub_of_lt (h : a < b) : Binary64.zero ≤ b - a := by
  obtain ⟨ha, hb⟩ := ne_nan_of_le (le_of_lt h)
  rw [sub_eq_add_neg]
  cases b with
  | nan => exact absurd rfl hb
  | infinite t =>
    cases t with
    | true => exact absurd h (not_lt_of_le (infinite_le ha))
    | false =>
      cases a with
      | nan => exact absurd rfl ha
      | finite s m hm => exact le_infinite Binary64.noConfusion
      | infinite s =>
        cases s with
        | true => exact le_infinite Binary64.noConfusion
        | false => exact absurd h (not_lt_of_le (le_refl ha))
  | finite t n hn =>
    cases a with
    | nan => exact absurd rfl ha
    | infinite s =>
      cases s with
      | true => exact le_infinite Binary64.noConfusion
      | false => exact absurd h (not_lt_of_le (le_infinite hb))
    | finite s m hm =>
      -- The difference of the quanta is positive, and rounding keeps it from being negative.
      have above : 0 < signed t n + signed (!s) m := by
        have : signed s m < signed t n := (lt_iff_of_position? rfl rfl).1 h
        rw [signed_not]
        omega
      rw [Binary64.neg, finite_add_finite, if_neg (Int.ne_of_gt above)]
      exact le_ofQuanta representable_zero (Int.le_of_lt above)

/-! ## Products -/

theorem infinite_beq_zero (s : Bool) : (infinite s == Binary64.zero) = false := by
  rw [Bool.eq_false_iff, Ne, beq_iff_of_position? rfl rfl]
  exact fun same => Nat.ne_of_gt limit_pos (signed_eq_zero_iff.1 same)

section

variable {s t : Bool} {m n : Nat} {hm : Representable m} {hn : Representable n}

theorem infinite_mul_infinite : infinite s * infinite t = infinite (s != t) := rfl

theorem infinite_mul_finite :
    infinite s * finite t n hn = if n = 0 then nan else infinite (s != t) := rfl

theorem finite_mul_infinite :
    finite s m hm * infinite t = if m = 0 then nan else infinite (s != t) := rfl

theorem finite_mul_finite : finite s m hm * finite t n hn = ofRatio (s != t) (m * n) one := by
  have product : finite s m hm * finite t n hn = (finite s m hm).mul (finite t n hn) := rfl
  rw [product, Binary64.mul]

end

/-- A product has no value only where a factor is nan, or zero meets infinity. -/
theorem mul_eq_nan_iff :
    a * b = nan ↔ a = nan ∨ b = nan ∨ (a == Binary64.zero) = true ∧ (∃ s, b = infinite s) ∨
      (∃ s, a = infinite s) ∧ (b == Binary64.zero) = true := by
  cases a with
  | nan => exact iff_of_true rfl (.inl rfl)
  | infinite s =>
    cases b with
    | nan => exact iff_of_true rfl (.inr (.inl rfl))
    | infinite t => simp [infinite_mul_infinite, infinite_beq_zero]
    | finite t n hn => simp [infinite_mul_finite, finite_beq_zero]
  | finite s m hm =>
    cases b with
    | nan => exact iff_of_true rfl (.inr (.inl rfl))
    | infinite t => simp [finite_mul_infinite, finite_beq_zero]
    | finite t n hn => simp [finite_mul_finite, ofRatio_ne_nan]

theorem nearest_zero_left {den : Nat} (pos : 0 < den) : nearest 0 den = 0 :=
  Nat.le_zero.1 (nearest_le pos (Nat.dvd_zero _) (Nat.zero_le _))

/-- A product of numbers that are not negative is not negative. -/
theorem zero_le_mul (ha : Binary64.zero ≤ a) (hb : Binary64.zero ≤ b) (h : a * b ≠ nan) :
    Binary64.zero ≤ a * b := by
  cases a with
  | nan => exact absurd rfl h
  | infinite s =>
    obtain rfl := zero_le_infinite_iff.1 ha
    cases b with
    | nan => exact absurd rfl h
    | infinite t =>
      obtain rfl := zero_le_infinite_iff.1 hb
      exact le_infinite Binary64.noConfusion
    | finite t n hn =>
      rw [infinite_mul_finite] at h ⊢
      split at h
      · exact absurd rfl h
      · rename_i ne
        obtain rfl := (zero_le_finite_iff.1 hb).resolve_right ne
        rw [if_neg ne]
        exact le_infinite Binary64.noConfusion
  | finite s m hm =>
    cases b with
    | nan => exact absurd rfl h
    | infinite t =>
      obtain rfl := zero_le_infinite_iff.1 hb
      rw [finite_mul_infinite] at h ⊢
      split at h
      · exact absurd rfl h
      · rename_i ne
        obtain rfl := (zero_le_finite_iff.1 ha).resolve_right ne
        rw [if_neg ne]
        exact le_infinite Binary64.noConfusion
    | finite t n hn =>
      rw [finite_mul_finite]
      refine (le_iff_of_position? rfl (position?_ofRatio _ _ _)).2 (signed_nonneg_iff.2 ?_)
      -- The sign is negative only with a zero of negative sign, and then nothing is rounded.
      rcases zero_le_finite_iff.1 ha with rfl | rfl
      · rcases zero_le_finite_iff.1 hb with rfl | rfl
        · exact .inl rfl
        · rw [Nat.mul_zero, nearest_zero_left one_pos, Nat.zero_min]
          exact .inr rfl
      · rw [Nat.zero_mul, nearest_zero_left one_pos, Nat.zero_min]
        exact .inr rfl

end Carom.Binary64
