import Mathlib.Data.List.Forall2
import Carom.Text.Numeral

/-!
# How numerals are written

The forms of a number and of a count in scripts, as relations between a text and what it
denotes. A number (`Numeral.Written`) is an optional sign, a mantissa of digits that may have
a point before, between or behind them, and an optional exponent; a count (`CountWritten`) is
an optional plus sign and digits. The readers take these texts and no others
(`Numeral.read?_eq_some_iff`, `countDigits?_eq_some_iff`).
-/

namespace Carom.Text

/-! ## Digits -/

/-- Characters that are digits of any writing system, and their values. -/
def DigitsOf (cs : List Char) (values : List Nat) : Prop :=
  List.Forall₂ (fun c d => digit? c = some d) cs values

/-- Where the digits of a text end. -/
def NoDigitAhead (cs : List Char) : Prop := ∀ c ∈ cs.head?, digit? c = none

theorem noDigitAhead_nil : NoDigitAhead [] := nofun

theorem noDigitAhead_cons {c : Char} (h : digit? c = none) (cs : List Char) :
    NoDigitAhead (c :: cs) := by
  rintro d ⟨⟩
  exact h

/-- Digits in front of something else are taken, all of them. -/
theorem takeDigits_append {cs : List Char} {ds : List Nat} (h : DigitsOf cs ds)
    {rest : List Char} (stop : NoDigitAhead rest) :
    takeDigits digit? (cs ++ rest) = (ds, rest) := by
  induction h with
  | nil =>
    cases rest with
    | nil => rfl
    | cons c rest => rw [List.nil_append, takeDigits, stop c rfl]
  | cons hc _ ih => rw [List.cons_append, takeDigits, hc, ih]

/-- What is taken are digits, and what is left does not go on with one. -/
theorem exists_takeDigits (cs : List Char) : ∃ front, cs = front ++ (takeDigits digit? cs).2 ∧
    DigitsOf front (takeDigits digit? cs).1 ∧ NoDigitAhead (takeDigits digit? cs).2 := by
  induction cs with
  | nil => exact ⟨[], rfl, .nil, noDigitAhead_nil⟩
  | cons c cs ih =>
    obtain ⟨front, eq, digits, stop⟩ := ih
    rw [takeDigits]
    cases hc : digit? c with
    | none => exact ⟨[], rfl, .nil, noDigitAhead_cons hc cs⟩
    | some d => exact ⟨c :: front, congrArg (c :: ·) eq, .cons hc digits, stop⟩

/-- The texts from which digits are taken to the end. -/
theorem takeDigits_eq_iff {cs : List Char} {ds : List Nat} :
    takeDigits digit? cs = (ds, []) ↔ DigitsOf cs ds := by
  constructor
  · intro h
    obtain ⟨front, eq, digits, _⟩ := exists_takeDigits cs
    rw [h, List.append_nil] at eq
    rw [h] at digits
    rwa [eq]
  · intro h
    simpa using takeDigits_append h noDigitAhead_nil

/-! ## Counts -/

/-- A count and the values of its digits. -/
inductive CountWritten : List Char → List Nat → Prop
  | bare {cs : List Char} {ds : List Nat} : DigitsOf cs ds → ds ≠ [] → CountWritten cs ds
  | signed {cs : List Char} {ds : List Nat} : DigitsOf cs ds → ds ≠ [] →
      CountWritten ('+' :: cs) ds

/-- A plus sign is no digit, so it can only be the sign. -/
theorem countWritten_plus_iff {cs : List Char} {ds : List Nat} :
    CountWritten ('+' :: cs) ds ↔ DigitsOf cs ds ∧ ds ≠ [] := by
  constructor
  · intro h
    cases h with
    | bare digits _ =>
      cases digits with
      | cons plus _ => simp [show digit? '+' = none by decide] at plus
    | signed digits ne => exact ⟨digits, ne⟩
  · rintro ⟨digits, ne⟩
    exact .signed digits ne

/-- Without a sign, a count is digits. -/
theorem countWritten_iff_of_not_plus {cs : List Char} {ds : List Nat}
    (h : ∀ rest, cs ≠ '+' :: rest) : CountWritten cs ds ↔ DigitsOf cs ds ∧ ds ≠ [] := by
  constructor
  · intro written
    cases written with
    | bare digits ne => exact ⟨digits, ne⟩
    | signed => exact absurd rfl (h _)
  · rintro ⟨digits, ne⟩
    exact .bare digits ne

/-- Which texts are read as counts, and as which ones. -/
theorem countDigits?_eq_some_iff {cs : List Char} {ds : List Nat} :
    countDigits? cs = some ds ↔ CountWritten cs ds := by
  by_cases plus : ∃ rest, cs = '+' :: rest
  · obtain ⟨rest, rfl⟩ := plus
    rw [countWritten_plus_iff, ← takeDigits_eq_iff, countDigits?.eq_1]
    rcases takeDigits digit? rest with ⟨_ | ⟨d, ds'⟩, _ | ⟨c, rest'⟩⟩ <;> simp
    all_goals rintro rfl; simp
  · have unsigned : ∀ rest, cs ≠ '+' :: rest := fun rest h => plus ⟨rest, h⟩
    rw [countWritten_iff_of_not_plus unsigned, ← takeDigits_eq_iff,
      countDigits?.eq_2 cs unsigned]
    rcases takeDigits digit? cs with ⟨_ | ⟨d, ds'⟩, _ | ⟨c, rest'⟩⟩ <;> simp
    all_goals rintro rfl; simp

/-! ## Numbers -/

/-- The sign of a number, and whether it is a minus. -/
inductive SignWritten : List Char → Bool → Prop
  | absent : SignWritten [] false
  | plus : SignWritten ['+'] false
  | minus : SignWritten ['-'] true

/-- The mantissa of a number, with the digits in front of its point and behind it. -/
inductive MantissaWritten : List Char → List Nat → List Nat → Prop
  | whole {cs : List Char} {ds : List Nat} : DigitsOf cs ds → ds ≠ [] → MantissaWritten cs ds []
  | pointed {cs fs : List Char} {ds es : List Nat} : DigitsOf cs ds → DigitsOf fs es →
      ds ≠ [] ∨ es ≠ [] → MantissaWritten (cs ++ '.' :: fs) ds es

/-- The exponent of a number. -/
inductive ExponentWritten : List Char → Int → Prop
  | absent : ExponentWritten [] 0
  | marked {mark : Char} {sign cs : List Char} {negative : Bool} {ds : List Nat} :
      mark = 'e' ∨ mark = 'E' → SignWritten sign negative → DigitsOf cs ds → ds ≠ [] →
      ExponentWritten (mark :: (sign ++ cs)) (Binary64.signed negative (ofDigits ds))

/-- A number: the digits of the fraction count as digits of the whole, at the price of as many
    powers of ten. -/
inductive Numeral.Written : List Char → Numeral → Prop
  | intro {sign mantissa exponent : List Char} {negative : Bool} {ds es : List Nat} {e : Int} :
      SignWritten sign negative → MantissaWritten mantissa ds es → ExponentWritten exponent e →
      Written (sign ++ (mantissa ++ exponent)) ⟨negative, ofDigits (ds ++ es), e - es.length⟩

/-- Whether a text does not begin with a sign. -/
def NoSignAhead (cs : List Char) : Prop := ∀ c ∈ cs.head?, c ≠ '+' ∧ c ≠ '-'

/-- A sign is taken where no other one follows it. -/
theorem takeSign_append {sign : List Char} {negative : Bool} (h : SignWritten sign negative)
    {rest : List Char} (stop : NoSignAhead rest) :
    takeSign (sign ++ rest) = (negative, rest) := by
  cases h with
  | absent =>
    rw [List.nil_append, takeSign.eq_def]
    split
    · exact absurd rfl (stop _ rfl).1
    · exact absurd rfl (stop _ rfl).2
    · rfl
  | plus => rfl
  | minus => rfl

/-- What is taken for a sign is one, or nothing. -/
theorem exists_takeSign (cs : List Char) : ∃ sign, cs = sign ++ (takeSign cs).2 ∧
    SignWritten sign (takeSign cs).1 := by
  rw [takeSign.eq_def]
  split
  · exact ⟨['+'], rfl, .plus⟩
  · exact ⟨['-'], rfl, .minus⟩
  · exact ⟨[], rfl, .absent⟩

/-- Digits are no signs. -/
theorem DigitsOf.noSignAhead {cs : List Char} {ds : List Nat} (h : DigitsOf cs ds) :
    NoSignAhead cs := by
  cases h with
  | nil => nofun
  | cons hc _ =>
    rintro c ⟨⟩
    constructor <;> rintro rfl
    · simp [show digit? '+' = none by decide] at hc
    · simp [show digit? '-' = none by decide] at hc

/-- An exponent is read iff it is written as one. -/
theorem exponent?_eq_some_iff {cs : List Char} {e : Int} :
    Numeral.exponent? digit? cs = some e ↔ ExponentWritten cs e := by
  constructor
  · intro h
    rw [Numeral.exponent?.eq_def] at h
    split at h
    · cases h
      exact .absent
    · rename_i mark cs
      split at h
      · rename_i marked
        obtain ⟨sign, eq, signed⟩ := exists_takeSign cs
        dsimp only at h
        split at h
        · rename_i d ds taken
          cases h
          have written := ExponentWritten.marked (by simpa using marked) signed
            (takeDigits_eq_iff.1 taken) (by simp)
          rwa [← eq] at written
        · cases h
      · cases h
  · intro h
    cases h with
    | absent => rfl
    | @marked mark sign cs negative ds marked signed digits ne =>
      have isMark : (mark == 'e' || mark == 'E') = true := by simpa using marked
      -- An exponent has a digit, and no sign begins with one, so the sign is all that is taken
      -- first.
      obtain ⟨d, ds, rfl⟩ := List.exists_cons_of_ne_nil ne
      simp only [Numeral.exponent?, isMark, if_true, takeSign_append signed digits.noSignAhead,
        takeDigits_eq_iff.2 digits]

/-- A mantissa has a digit. -/
theorem MantissaWritten.ne_nil {cs : List Char} {ds es : List Nat} (h : MantissaWritten cs ds es) :
    ds ≠ [] ∨ es ≠ [] := by
  cases h with
  | whole _ ne => exact .inl ne
  | pointed _ _ ne => exact ne

/-- What may come behind the mantissa of a number does not go on with it. -/
theorem ExponentWritten.stops {cs : List Char} {e : Int} (h : ExponentWritten cs e) :
    NoDigitAhead cs ∧ ∀ rest, cs ≠ '.' :: rest := by
  cases h with
  | absent => exact ⟨noDigitAhead_nil, nofun⟩
  | marked marked =>
    rcases marked with rfl | rfl
    · exact ⟨noDigitAhead_cons (by decide) _, by simp⟩
    · exact ⟨noDigitAhead_cons (by decide) _, by simp⟩

/-- A mantissa begins with a digit or with a point. -/
theorem MantissaWritten.noSignAhead {cs : List Char} {ds es : List Nat}
    (h : MantissaWritten cs ds es) (rest : List Char) : NoSignAhead (cs ++ rest) := by
  cases h with
  | whole digits ne =>
    cases digits with
    | nil => exact absurd rfl ne
    | cons hc more => simpa [NoSignAhead] using (DigitsOf.noSignAhead (.cons hc more))
  | pointed digits _ _ =>
    cases digits with
    | nil => simp [NoSignAhead]
    | cons hc more => simpa [NoSignAhead] using (DigitsOf.noSignAhead (.cons hc more))

/-- The digits in front of the point and those behind it are taken apart. -/
theorem takeMantissa_append {cs rest : List Char} {ds es : List Nat}
    (h : MantissaWritten cs ds es) (stop : NoDigitAhead rest) (noPoint : ∀ cs, rest ≠ '.' :: cs) :
    (takeDigits digit? (cs ++ rest)).1 = ds ∧
      Numeral.takeFraction digit? (takeDigits digit? (cs ++ rest)).2 = (es, rest) := by
  cases h with
  | whole digits _ =>
    rw [takeDigits_append digits stop]
    refine ⟨rfl, ?_⟩
    rw [Numeral.takeFraction.eq_def]
    split
    · rename_i fs point
      exact absurd point (noPoint fs)
    · rfl
  | @pointed cs fs _ _ digits fraction _ =>
    have point : NoDigitAhead ('.' :: (fs ++ rest)) := noDigitAhead_cons (by decide) _
    rw [List.append_assoc, List.cons_append, takeDigits_append digits point]
    exact ⟨rfl, takeDigits_append fraction stop⟩

/-- Digits and a fraction, not both without a digit, are a mantissa. -/
theorem exists_takeMantissa (cs : List Char)
    (ne : (takeDigits digit? cs).1 ≠ [] ∨
      (Numeral.takeFraction digit? (takeDigits digit? cs).2).1 ≠ []) :
    ∃ front, cs = front ++ (Numeral.takeFraction digit? (takeDigits digit? cs).2).2 ∧
      MantissaWritten front (takeDigits digit? cs).1
        (Numeral.takeFraction digit? (takeDigits digit? cs).2).1 := by
  obtain ⟨front, eq, digits, _⟩ := exists_takeDigits cs
  generalize takeDigits digit? cs = taken at eq digits ne ⊢
  rw [Numeral.takeFraction.eq_def] at ne ⊢
  split at ne
  · rename_i fs point
    obtain ⟨back, eq', digits', _⟩ := exists_takeDigits fs
    refine ⟨front ++ '.' :: back, ?_, .pointed digits digits' ne⟩
    rw [eq, point, List.append_assoc, List.cons_append, ← eq']
  · exact ⟨front, eq, .whole digits (ne.resolve_right (by simp))⟩

/-- Which texts are read as numbers, and as which ones. -/
theorem Numeral.read?_eq_some_iff {cs : List Char} {n : Numeral} :
    Numeral.read? digit? cs = some n ↔ Numeral.Written cs n := by
  constructor
  · intro h
    obtain ⟨sign, eq, signed⟩ := exists_takeSign cs
    simp only [Numeral.read?] at h
    split at h
    · cases h
    · rename_i digits
      obtain ⟨e, exponent, rfl⟩ := Option.map_eq_some_iff.1 h
      obtain ⟨front, eq', mantissa⟩ := exists_takeMantissa (takeSign cs).2
        (by simpa [Classical.or_iff_not_imp_left] using digits)
      have written := Written.intro signed mantissa (exponent?_eq_some_iff.1 exponent)
      rwa [← eq', ← eq] at written
  · rintro ⟨signed, mantissa, exponent⟩
    -- What is behind the mantissa has neither a digit nor a point in front, so the mantissa is
    -- taken as a whole.
    obtain ⟨stop, noPoint⟩ := exponent.stops
    obtain ⟨whole, fraction⟩ := takeMantissa_append mantissa stop noPoint
    have digits := mantissa.ne_nil
    simp only [Numeral.read?, takeSign_append signed (mantissa.noSignAhead _), whole, fraction,
      exponent?_eq_some_iff.2 exponent, Option.map_some]
    rw [if_neg]
    simpa [Classical.or_iff_not_imp_left] using digits

end Carom.Text
