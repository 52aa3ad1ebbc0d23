import Carom.Proofs.Binary64.Range
import Carom.Proofs.Text.Blank
import Carom.Script.Statement

/-!
# What a line says

The forms of a statement in terms of its words alone (`Spells`), without the order in
which the reader looks at them and without its causes of error.

* `statement_eq_ok_iff`: a line is read as an instruction iff it begins with one of the two
  keywords, a space behind it, and its words spell the instruction.
* `oversized_iff`: a condition of the right form whose count has too many digits or lies out
  of range (`Line.Oversized`) is not read and yet not malformed; there is no other such line.
-/

namespace Carom.Script

open Text

/-! ## Words behind a keyword -/

/-- A keyword in front of a line is its first word. -/
theorem words_of_startsWith {keyword : String} {line : List Char} (ne : keyword.toList ≠ [])
    (unbroken : keyword.toList.any isBlank = false) (h : startsWith keyword line) :
    words line = keyword.toList :: words (after keyword line) := by
  have noBlank : ∀ c ∈ keyword.toList, isBlank c = false := fun c hc =>
    Bool.eq_false_iff.2 (List.any_eq_false.1 unbroken c hc)
  obtain ⟨rest, rfl⟩ := List.isPrefixOf_iff_prefix.1 h
  have hafter : after keyword (keyword.toList ++ [' '] ++ rest) = rest := by
    simp [after, ← String.length_toList]
  have hspace : isBlank ' ' = true := by decide
  rw [hafter, words, List.append_assoc, wordsFrom_append noBlank, List.append_nil,
    List.singleton_append, wordsFrom_cons, if_pos hspace, List.reverse_reverse,
    if_neg (by simpa using ne)]
  rfl

/-- The first word of a condition is its keyword. -/
theorem words_if {line : List Char} (h : startsWith "if" line) :
    words line = "if".toList :: words (after "if" line) :=
  words_of_startsWith (by decide) (by decide) h

/-- And so is that of a setting. -/
theorem words_set {line : List Char} (h : startsWith "set" line) :
    words line = "set".toList :: words (after "set" line) :=
  words_of_startsWith (by decide) (by decide) h

/-! ## Counts -/

/-- The digits of a count that cannot be converted: there are too many of them, or no
    number can hold their value. -/
def Oversized (digits : List Nat) : Prop :=
  maxCountDigits < digits.length ∨ 2 ^ 1024 - 2 ^ 970 ≤ ofDigits digits

/-- A count is read iff there are not too many digits and a number holds their value. -/
theorem readCount_eq_ok_iff {digits : List Nat} {n : Binary64} :
    readCount digits = .ok n ↔
      digits.length ≤ maxCountDigits ∧ Binary64.ofInt? (ofDigits digits) = some n := by
  rw [readCount]
  split
  · rename_i long
    simp [Nat.not_le.2 long]
  · rename_i short
    cases h : Binary64.ofInt? (ofDigits digits) <;> simp [Nat.not_lt.1 short]

/-- A count that is not converted is oversized, and that is no fault of the syntax. -/
theorem readCount_eq_error {digits : List Nat} {e : ReadError} (h : readCount digits = .error e) :
    Oversized digits ∧ ∀ s, e ≠ .malformed s := by
  rw [readCount] at h
  split at h
  · rename_i long
    cases h
    exact ⟨.inl long, nofun⟩
  · split at h
    · cases h
    · rename_i none
      cases h
      rw [Binary64.ofInt?_eq_none_iff, Int.natAbs_natCast] at none
      exact ⟨.inr none, nofun⟩

/-- Every oversized count is an error. -/
theorem exists_readCount_eq_error {digits : List Nat} (h : Oversized digits) :
    ∃ e, readCount digits = .error e := by
  cases read : readCount digits with
  | error e => exact ⟨e, rfl⟩
  | ok n =>
    obtain ⟨short, some⟩ := readCount_eq_ok_iff.1 read
    rcases h with long | large
    · omega
    · rw [← Int.natAbs_natCast (ofDigits digits), ← Binary64.ofInt?_eq_none_iff, some] at large
      cases large

/-! ## Statements -/

/-- The words of a statement and the instruction that they spell. -/
inductive Spells : List (List Char) → Instruction → Prop
  | condition {color target count : List Char} {digits : List Nat} {hits : Binary64} :
      countDigits? count = some digits → digits.length ≤ maxCountDigits →
      Binary64.ofInt? (ofDigits digits) = some hits →
      Spells ["if".toList, color, "hits".toList, target, count, "times".toList] (bounceFrom hits)
  | speed {value : List Char} {n : Numeral} : Numeral.read? digit? value = some n →
      Spells ["set".toList, "speed".toList, value] (setSpeed n.toNumber)
  | change {value : List Char} {n : Numeral} : Numeral.read? digit? value = some n →
      Spells ["set".toList, "speed".toList, "relative".toList, value] (changeSpeed n.toNumber)
  | direction {word : List Char} {d : Direction} :
      Direction.ofWord? (String.ofList word) = some d →
      Spells ["set".toList, "direction".toList, word] (setDirection d)

/-- The words of a condition whose count is written as one, but is oversized. -/
inductive SpellsOversized : List (List Char) → Prop
  | condition {color target count : List Char} {digits : List Nat} :
      countDigits? count = some digits → Oversized digits →
      SpellsOversized ["if".toList, color, "hits".toList, target, count, "times".toList]

/-- A condition that is well formed, but whose count is oversized. -/
def Line.Oversized (l : Line) : Prop := startsWith "if" l.text ∧ SpellsOversized (words l.text)

/-- What is made of a word is made of the number that it is. -/
theorem map_readNumber_eq_ok_iff {token : List Char} {f : Binary64 → Instruction}
    {i : Instruction} : (readNumber token).map f = .ok i ↔
      ∃ n, Numeral.read? digit? token = some n ∧ f n.toNumber = i := by
  rw [readNumber]
  split
  · rename_i n h
    simp [h, Except.map]
  · rename_i h
    simp [h, Except.map]

/-- A condition is five words, with its two keywords in their places and a count between them. The
    other two words may be any. -/
theorem readCondition_eq_ok_iff {tokens : List (List Char)} {digits : List Nat} :
    readCondition tokens = .ok digits ↔ ∃ color target count,
      tokens = [color, "hits".toList, target, count, "times".toList] ∧
        countDigits? count = some digits := by
  constructor
  · intro h
    rw [readCondition.eq_def] at h
    split at h
    · rename_i color hits target count times
      split at h
      · -- Both keywords are in place; what is left to decide is the count.
        rename_i keywords
        rw [Bool.and_eq_true, beq_iff_eq, beq_iff_eq] at keywords
        obtain ⟨rfl, rfl⟩ := keywords
        split at h
        · rename_i ds read
          cases h
          exact ⟨color, target, count, rfl, read⟩
        · cases h
      · cases h
    · cases h
  · rintro ⟨color, target, count, rfl, read⟩
    simp [readCondition, read]

/-- No numeral is the word that announces a change. -/
theorem read?_relative : Numeral.read? digit? "relative".toList = none := by decide

/-- What is read as a setting is spelled as one. -/
theorem spells_of_readSetting {tokens : List (List Char)} {i : Instruction}
    (h : readSetting ("set".toList :: tokens) = .ok i) : Spells ("set".toList :: tokens) i := by
  rw [readSetting.eq_def] at h
  split at h
  case h_2 => cases h
  rename_i _ _ property value more e
  obtain ⟨rfl, rfl⟩ := List.cons.inj e
  -- The cases follow the reader: the property first, then how many words are left for it.
  split at h
  · rename_i isSpeed
    obtain rfl := eq_of_beq isSpeed
    split at h
    · rename_i isChange
      obtain rfl := eq_of_beq isChange
      split at h
      · obtain ⟨n, read, rfl⟩ := map_readNumber_eq_ok_iff.1 h
        exact .change read
      · cases h
    · split at h
      · rename_i single
        obtain rfl := List.isEmpty_iff.1 single
        obtain ⟨n, read, rfl⟩ := map_readNumber_eq_ok_iff.1 h
        exact .speed read
      · cases h
  · split at h
    · rename_i isDirection
      obtain rfl := eq_of_beq isDirection
      split at h
      · rename_i single
        obtain rfl := List.isEmpty_iff.1 single
        split at h
        · rename_i d read
          cases h
          exact .direction read
        · cases h
      · cases h
    · cases h

/-- What is spelled as a setting is read as one. -/
theorem readSetting_of_spells {tokens : List (List Char)} {i : Instruction}
    (h : Spells ("set".toList :: tokens) i) : readSetting ("set".toList :: tokens) = .ok i := by
  -- The form of the words has to be a variable for the cases, as each form fixes its own words.
  generalize hws : "set".toList :: tokens = ws at h ⊢
  cases h with
  | condition => simp at hws
  | @speed value n read =>
    -- A speed does not read as a change, since the word for a change is no numeral.
    have notChange : value ≠ "relative".toList := by
      rintro rfl
      rw [read?_relative] at read
      cases read
    simp only [readSetting, beq_self_eq_true, if_true, beq_eq_false_iff_ne.2 notChange,
      Bool.false_eq_true, if_false, List.isEmpty_nil]
    exact map_readNumber_eq_ok_iff.2 ⟨n, read, rfl⟩
  | @change value n read =>
    simp only [readSetting, beq_self_eq_true, if_true]
    exact map_readNumber_eq_ok_iff.2 ⟨n, read, rfl⟩
  | direction read => simp [readSetting, read]

/-- The reader of settings and their grammar agree. -/
theorem readSetting_eq_ok_iff {tokens : List (List Char)} {i : Instruction} :
    readSetting ("set".toList :: tokens) = .ok i ↔ Spells ("set".toList :: tokens) i :=
  ⟨spells_of_readSetting, readSetting_of_spells⟩

/-- The words of a condition spell a bounce from the count that the two readers find. -/
theorem spells_if_iff {tokens : List (List Char)} {i : Instruction} :
    Spells ("if".toList :: tokens) i ↔
      ∃ digits n, readCondition tokens = .ok digits ∧ readCount digits = .ok n ∧
        bounceFrom n = i := by
  simp only [readCondition_eq_ok_iff, readCount_eq_ok_iff]
  constructor
  · generalize hws : "if".toList :: tokens = ws
    intro h
    cases h with
    | @condition color target count digits hits read short fits =>
      exact ⟨digits, hits, ⟨color, target, count, (List.cons.inj hws).2, read⟩, ⟨short, fits⟩, rfl⟩
    | speed => simp at hws
    | change => simp at hws
    | direction => simp at hws
  · rintro ⟨digits, n, ⟨color, target, count, rfl, read⟩, ⟨short, fits⟩, rfl⟩
    exact .condition read short fits

/-- The words of a condition with an oversized count are those that the first reader takes and the
    second one does not. -/
theorem spellsOversized_if_iff {tokens : List (List Char)} :
    SpellsOversized ("if".toList :: tokens) ↔
      ∃ digits, readCondition tokens = .ok digits ∧ Oversized digits := by
  simp only [readCondition_eq_ok_iff]
  constructor
  · generalize hws : "if".toList :: tokens = ws
    rintro ⟨read, large⟩
    exact ⟨_, ⟨_, _, _, (List.cons.inj hws).2, read⟩, large⟩
  · rintro ⟨digits, ⟨color, target, count, rfl, read⟩, large⟩
    exact .condition read large

/-- What a line has to be in order to be read as an instruction. -/
theorem statement_eq_ok_iff {l : Line} {i : Instruction} :
    l.statement = .ok i ↔
      (startsWith "if" l.text ∨ startsWith "set" l.text) ∧ Spells (words l.text) i := by
  unfold Line.statement
  split
  · rename_i isIf
    rw [words_if isIf, spells_if_iff, and_iff_right (.inl isIf)]
    cases readCondition (words (after "if" l.text)) with
    | error c => simp [Line.error]
    | ok digits => cases h : readCount digits <;> simp [h, Except.map]
  · rename_i notIf
    split
    · rename_i isSet
      rw [words_set isSet, ← readSetting_eq_ok_iff, and_iff_right (.inr isSet)]
      cases readSetting ("set".toList :: words (after "set" l.text)) <;> simp [Line.error]
    · rename_i notSet
      simp [notIf, notSet, Line.error]

/-- A line is neither read nor malformed iff its count is oversized. -/
theorem oversized_iff {l : Line} :
    l.Oversized ↔ ∃ e, l.statement = .error e ∧ ∀ s, e ≠ .malformed s := by
  unfold Line.Oversized Line.statement
  split
  · rename_i isIf
    -- Only a condition has a count, so for any other line both sides are false.
    rw [words_if isIf, spellsOversized_if_iff, and_iff_right isIf]
    cases readCondition (words (after "if" l.text)) with
    | error c => simp [Line.error]
    | ok digits =>
      constructor
      · rintro ⟨_, read, large⟩
        cases read
        obtain ⟨e, h⟩ := exists_readCount_eq_error large
        exact ⟨e, by simp [h, Except.map], (readCount_eq_error h).2⟩
      · rintro ⟨e, h, _⟩
        cases read : readCount digits with
        | ok n => simp [read, Except.map] at h
        | error e' => exact ⟨digits, rfl, (readCount_eq_error read).1⟩
  · rename_i notIf
    rw [iff_false_intro notIf, false_and, false_iff]
    split
    · cases readSetting (words l.text) <;> simp [Line.error]
    · simp [Line.error]

end Carom.Script
