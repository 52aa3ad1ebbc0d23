import Carom.Evaluation
import Carom.Proofs.Binary64.Order

/-!
# Equal and different numbers

*Equal* and *different* are two tests on one distance, and where the distance is not a number both
of them fail. So one of the two holds if and only if the distance is a number
(`Binary64.near_xor_apart_iff`), which fails at nan, and at two infinities of one sign too, as they
have no difference (`Binary64.Comparable`).

Scripts see no more than the tests: an operation on two expressions answers what it answers on the
numbers that they give (`BinaryOp.answers_iff`).
-/

namespace Carom

namespace Binary64

/-- Numbers that have a distance: neither is nan, and they are not the same infinity. -/
def Comparable (a b : Binary64) : Prop :=
  a ≠ nan ∧ b ≠ nan ∧ ∀ s, a = infinite s → b ≠ infinite s

variable {a b : Binary64}

/-- Only nan and two infinities of one sign have no difference. -/
theorem sub_ne_nan_iff : a - b ≠ nan ↔ Comparable a b := by
  rw [Ne, sub_eq_nan_iff, Comparable, not_or, not_or]
  exact and_congr Iff.rfl (and_congr Iff.rfl ⟨fun h s ha hb => h ⟨s, ha, hb⟩,
    fun h ⟨s, ha, hb⟩ => h s ha hb⟩)

/-- The distance has no direction, so neither has being equal. -/
theorem near_comm (a b : Binary64) : a.near b = b.near a := by
  rw [near, near, abs_sub_comm]

theorem apart_comm (a b : Binary64) : a.apart b = b.apart a := by
  rw [apart, apart, abs_sub_comm]

theorem tolerance_ne_nan : tolerance ≠ nan := ofRatio_ne_nan _ _ _

/-- A magnitude is nan only of nan. -/
theorem abs_eq_nan_iff : a.abs = nan ↔ a = nan := by
  cases a <;> simp [abs]

/-- No test holds of numbers without a distance. -/
theorem not_near_not_apart (h : ¬Comparable a b) : a.near b = false ∧ a.apart b = false := by
  have distance : (a - b).abs = nan :=
    abs_eq_nan_iff.2 (Decidable.not_not.1 (mt sub_ne_nan_iff.1 h))
  rw [near, apart, distance]
  exact ⟨decide_eq_false fun lt => (ne_nan_of_le (le_of_lt lt)).1 rfl,
    decide_eq_false fun le => (ne_nan_of_le le).2 rfl⟩

/-- Exactly one of the tests holds of numbers that have a distance, and of no others. -/
theorem near_xor_apart_iff : a.near b = !a.apart b ↔ Comparable a b := by
  by_cases h : Comparable a b
  · -- The distance is on one side of the tolerance, as the order is total.
    have distance : (a - b).abs ≠ nan := mt abs_eq_nan_iff.1 (sub_ne_nan_iff.2 h)
    have total := lt_iff_not_le distance tolerance_ne_nan
    refine iff_of_true ?_ h
    rw [near, apart, ← decide_not, decide_eq_decide]
    exact total
  · obtain ⟨notNear, notApart⟩ := not_near_not_apart h
    rw [notNear, notApart]
    exact iff_of_false Bool.false_ne_true h

end Binary64

namespace BinaryOp

variable {a b : Binary64}

/-- Whatever expressions give the numbers, in whatever context, the operation on them gives this
    truth value and leaves the engine as the second one does. -/
def Answers (op : BinaryOp) (a b : Binary64) (answer : Bool) : Prop :=
  ∀ (c : Context) (g g' g'' : Engine) (left right : Expression),
    left.eval c g = .ok (.number a) g' → right.eval c g' = .ok (.number b) g'' →
      (Expression.binary op left right).eval c g = .ok (.boolean answer) g''

/-- A test on numbers answers what it finds, and nothing else: the numbers have their constants. -/
theorem answers_iff {op : BinaryOp} {found answer : Bool}
    (test : op.onNumbers a b = .ok (.boolean found)) : op.Answers a b answer ↔ answer = found := by
  have evaluated {c : Context} {g g' g'' : Engine} {left right : Expression}
      (hl : left.eval c g = .ok (.number a) g') (hr : right.eval c g' = .ok (.number b) g'') :
      (Expression.binary op left right).eval c g = .ok (.boolean found) g'' := by
    have computed : op.compute (.number a) (.number b) = pure (.boolean found) := by
      rw [compute, onValues, test]
    simp only [Expression.eval, bind, EStateM.bind, hl, hr, computed]
    rfl
  constructor
  · intro h
    -- The answer has to hold of all expressions, so it holds of the two constants.
    let g : Engine := { source := fun _ => .zero }
    have constants := h {} g g g (.number a) (.number b) rfl rfl
    cases constants.symm.trans (evaluated rfl rfl)
    rfl
  · rintro rfl c g g' g'' left right hl hr
    exact evaluated hl hr

/-- *Equal* answers whether the distance is less than the tolerance. -/
theorem eq_answers_iff {answer : Bool} : eq.Answers a b answer ↔ answer = a.near b :=
  answers_iff rfl

/-- *Different* answers whether it is not less. -/
theorem ne_answers_iff {answer : Bool} : ne.Answers a b answer ↔ answer = a.apart b :=
  answers_iff rfl

/-- Exactly one of *equal* and *different* answers *true*. -/
def Complementary (a b : Binary64) : Prop :=
  ∃ equal different, eq.Answers a b equal ∧ ne.Answers a b different ∧ equal = !different

/-- *Equal* and *different* are complementary on the numbers that have a distance, and answer
    *false* on all others. Both are symmetric. -/
theorem complementary_iff_comparable (a b : Binary64) :
    (Complementary a b ↔ a.Comparable b) ∧
      (¬a.Comparable b → eq.Answers a b false ∧ ne.Answers a b false) ∧
      ∀ answer, (eq.Answers a b answer ↔ eq.Answers b a answer) ∧
        (ne.Answers a b answer ↔ ne.Answers b a answer) := by
  simp only [Complementary, eq_answers_iff, ne_answers_iff]
  refine ⟨?_, fun h => ?_, fun answer => ?_⟩
  · rw [← Binary64.near_xor_apart_iff]
    constructor
    · rintro ⟨equal, different, heq, hne, opposite⟩
      rwa [heq, hne] at opposite
    · exact fun opposite => ⟨_, _, rfl, rfl, opposite⟩
  · obtain ⟨notNear, notApart⟩ := Binary64.not_near_not_apart h
    exact ⟨notNear.symm, notApart.symm⟩
  · rw [Binary64.near_comm, Binary64.apart_comm]
    exact ⟨Iff.rfl, Iff.rfl⟩

/-- It is not enough that neither number is nan: infinity is not equal to itself, nor different
    from itself. -/
theorem not_complementary_infinite :
    ¬∀ a b : Binary64, a ≠ .nan → b ≠ .nan → Complementary a b := by
  intro complementary
  obtain ⟨equal, different, heq, hne, opposite⟩ :=
    complementary (.infinite false) (.infinite false) Binary64.noConfusion Binary64.noConfusion
  rw [eq_answers_iff] at heq
  rw [ne_answers_iff] at hne
  obtain ⟨notNear, notApart⟩ := @Binary64.not_near_not_apart (.infinite false) (.infinite false)
    fun ⟨_, _, apart⟩ => apart false rfl rfl
  rw [heq, hne, notNear, notApart] at opposite
  cases opposite

end BinaryOp

end Carom
