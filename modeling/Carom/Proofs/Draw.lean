import Carom.Binary64.Decimal
import Carom.Evaluation
import Carom.Proofs.Binary64.Order

/-!
# Random numbers in their range

A draw is a part of the way through a range, and is taken back to the beginning where rounding
carries it to the end. The sum cannot fall below the beginning (`Binary64.le_add_of_nonneg`), so
the number is in its half-open range if the sum is a number at all (`Binary64.between_mem`).

It is not if the range begins at minus infinity, or if nothing of a range of infinite length is
drawn, as zero times infinity is nan (`Binary64.Strays`). A range is of infinite length also where
both ends are finite and their difference overflows.
-/

namespace Carom

namespace Binary64

/-- What spoils a draw: the range begins at minus infinity, or its length is not finite and the
    part that is drawn of it is zero. -/
def Strays (min max part : Binary64) : Prop :=
  min = infinite true ∨ (part == Binary64.zero) = true ∧ (max - min).isFinite = false

variable {min max part : Binary64}

/-- Infinity is no part of a whole. -/
theorem ne_infinite_of_part (nonneg : Binary64.zero ≤ part) (below : part < ofInt 1) (s : Bool) :
    part ≠ infinite s := by
  rintro rfl
  obtain rfl := zero_le_infinite_iff.1 nonneg
  exact not_lt_of_le (le_infinite (ofInt_ne_nan 1)) below

/-- A range that begins at minus infinity is of infinite length. -/
theorem sub_infinite_true (lt : infinite true < max) : max - infinite true = infinite false := by
  cases max with
  | nan => exact absurd rfl (ne_nan_of_le (le_of_lt lt)).2
  | infinite s =>
    cases s with
    | false => rfl
    | true => exact absurd lt (not_lt_of_le (le_refl Binary64.noConfusion))
  | finite s m fits => rfl

/-- Of an infinite length either all is drawn or nothing, which has no value. -/
theorem mul_infinite_of_part (nonneg : Binary64.zero ≤ part) (below : part < ofInt 1) :
    part * infinite false = nan ∨ part * infinite false = infinite false := by
  cases part with
  | nan => exact .inl rfl
  | infinite s => exact absurd rfl (ne_infinite_of_part nonneg below s)
  | finite s m fits =>
    rw [finite_mul_infinite]
    rcases zero_le_finite_iff.1 nonneg with rfl | rfl
    · split
      · exact .inl rfl
      · exact .inr rfl
    · exact .inl rfl

section

variable (lt : min < max) (nonneg : Binary64.zero ≤ part) (below : part < ofInt 1)
include lt nonneg below

/-- The part of the length has a value unless it is zero times infinity. -/
theorem mul_sub_eq_nan_iff :
    part * (max - min) = nan ↔ (part == Binary64.zero) = true ∧ (max - min).isFinite = false := by
  have length := sub_ne_nan_of_lt lt
  rw [mul_eq_nan_iff, isFinite_eq_false_iff length]
  -- Of the ways in which a product has no value only one is left: no operand is nan, and the part
  -- is not infinite.
  constructor
  · rintro (isNan | isNan | both | ⟨⟨s, isInfinite⟩, -⟩)
    · exact absurd isNan (ne_nan_of_le nonneg).2
    · exact absurd isNan length
    · exact both
    · exact absurd isInfinite (ne_infinite_of_part nonneg below s)
  · exact fun both => .inr (.inr (.inl both))

/-- A draw has no value exactly if it is spoiled. -/
theorem add_mul_sub_eq_nan_iff : min + part * (max - min) = nan ↔ Strays min max part := by
  obtain ⟨min_ne, max_ne⟩ := ne_nan_of_le (le_of_lt lt)
  rw [add_eq_nan_iff, mul_sub_eq_nan_iff lt nonneg below, Strays]
  constructor
  · rintro (isNan | spoiled | ⟨s, rfl, -⟩)
    · exact absurd isNan min_ne
    · exact .inr spoiled
    · cases s with
      | true => exact .inl rfl
      | false => exact absurd lt (not_lt_of_le (le_infinite max_ne))
  · rintro (rfl | spoiled)
    · have length := sub_infinite_true lt
      rcases mul_infinite_of_part nonneg below with isNan | all
      · rw [← mul_sub_eq_nan_iff lt nonneg below, length]
        exact .inr (.inl isNan)
      · exact .inr (.inr ⟨true, rfl, length ▸ all⟩)
    · exact .inr (.inl spoiled)

/-- A spoiled draw is not taken back to the beginning either, as nan reaches no end. -/
theorem between_of_strays (strays : Strays min max part) : between min max part = nan := by
  have drawn := (add_mul_sub_eq_nan_iff lt nonneg below).2 strays
  rw [between, drawn]
  exact if_neg fun reached => (ne_nan_of_le reached).2 rfl

/-- A draw that is not spoiled is in its range, with the end left out. -/
theorem between_mem (inside : ¬Strays min max part) :
    min ≤ between min max part ∧ between min max part < max := by
  obtain ⟨min_ne, max_ne⟩ := ne_nan_of_le (le_of_lt lt)
  have drawn_ne : min + part * (max - min) ≠ nan :=
    mt (add_mul_sub_eq_nan_iff lt nonneg below).1 inside
  have product_ne : part * (max - min) ≠ nan := fun isNan =>
    drawn_ne (add_eq_nan_iff.2 (.inr (.inl isNan)))
  -- It is enough that the part is not negative: rounding takes no sum below one of its terms then.
  have above : Binary64.zero ≤ part * (max - min) :=
    zero_le_mul nonneg (zero_le_sub_of_lt lt) product_ne
  rw [between]
  by_cases reached : max ≤ min + part * (max - min)
  · rw [if_pos reached]
    exact ⟨le_refl min_ne, lt⟩
  · rw [if_neg reached]
    exact ⟨le_add_of_nonneg above drawn_ne, (lt_iff_not_le drawn_ne max_ne).2 reached⟩

end

end Binary64

namespace Expression

/-- A random number that is drawn as this part of the way from `min` to `max` is a number from
    `min` on and below `max`, in whatever context and engine. -/
def DrawsInside (min max part : Binary64) : Prop :=
  ∀ (c : Context) (g : Engine), g.next = part →
    ∃ v, (random min max).eval c g = .ok (.number v) g.advance ∧ min ≤ v ∧ v < max

/-- One number is drawn of a range that is not empty. -/
theorem eval_random {min max : Binary64} (lt : min < max) (c : Context) (g : Engine) :
    (random min max).eval c g = .ok (.number (Binary64.between min max g.next)) g.advance := by
  rw [eval, if_pos lt]
  rfl

/-- A spoiled draw is nan. -/
theorem eval_random_of_strays {min max : Binary64} {g : Engine} (lt : min < max)
    (nonneg : Binary64.zero ≤ g.next) (below : g.next < Binary64.ofInt 1)
    (strays : Binary64.Strays min max g.next) (c : Context) :
    (random min max).eval c g = .ok (.number .nan) g.advance := by
  rw [eval_random lt, Binary64.between_of_strays lt nonneg below strays]

section

variable {min max part : Binary64} (lt : min < max) (nonneg : Binary64.zero ≤ part)
  (below : part < Binary64.ofInt 1)
include lt nonneg below

/-- And nan is in no range. -/
theorem not_drawsInside_of_strays (strays : Binary64.Strays min max part) :
    ¬DrawsInside min max part := by
  intro inside
  let g : Engine := { source := fun _ => part }
  obtain ⟨v, drawn, least, -⟩ := inside {} g rfl
  have isNan := @eval_random_of_strays min max g lt nonneg below strays {}
  cases drawn.symm.trans isNan
  exact (Binary64.ne_nan_of_le least).2 rfl

/-- Random numbers stay in their half-open range, unless the range begins at minus infinity or
    nothing of an infinite length is drawn; then they are nan. -/
theorem drawsInside_iff :
    (DrawsInside min max part ↔ ¬Binary64.Strays min max part) ∧
      (Binary64.Strays min max part → ∀ (c : Context) (g : Engine), g.next = part →
        (random min max).eval c g = .ok (.number .nan) g.advance) := by
  refine ⟨⟨fun inside strays => ?_, ?_⟩, ?_⟩
  · exact not_drawsInside_of_strays lt nonneg below strays inside
  · rintro inside c g rfl
    exact ⟨_, eval_random lt c g, Binary64.between_mem lt nonneg below inside⟩
  · rintro strays c g rfl
    exact eval_random_of_strays lt nonneg below strays c

end

/-- Half of the way from one to two. -/
theorem drawsInside_half :
    Binary64.ofInt 1 < Binary64.ofInt 2 ∧ Binary64.zero ≤ Binary64.ofDecimal false 5 (-1) ∧
      Binary64.ofDecimal false 5 (-1) < Binary64.ofInt 1 ∧
      DrawsInside (.ofInt 1) (.ofInt 2) (.ofDecimal false 5 (-1)) := by
  have lt : Binary64.ofInt 1 < Binary64.ofInt 2 := by decide +kernel
  have nonneg : Binary64.zero ≤ Binary64.ofDecimal false 5 (-1) := by decide +kernel
  have below : Binary64.ofDecimal false 5 (-1) < Binary64.ofInt 1 := by decide +kernel
  refine ⟨lt, nonneg, below, (drawsInside_iff lt nonneg below).1.2 ?_⟩
  rintro (unbounded | ⟨nothing, -⟩)
  · exact absurd unbounded (by decide +kernel)
  · exact absurd nothing (by decide +kernel)

/-- The range from `-1e308` to `1e308` has ends that are finite, but no finite length. -/
theorem not_drawsInside_of_wide_range :
    ¬DrawsInside (.ofDecimal true 1 308) (.ofDecimal false 1 308) .zero := by
  refine not_drawsInside_of_strays ?_ ?_ ?_ (.inr ⟨?_, ?_⟩)
  all_goals decide +kernel

end Expression

end Carom
