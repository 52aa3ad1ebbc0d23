import Carom.Proofs.Script.Fault
import Carom.Script.Editor

/-!
# Texts in the editor

What compiling does with the text of a user: every program that comes of it ends with the
whole text (`KeepsText`), and nothing but a count can stand in the way. A text whose first
fault is an oversized count (`BreaksOnCount`) has no compilation at all, so no program is
there to keep it; every other text, malformed or not, is kept (`exists_keepsText_iff`).
-/

namespace Carom.Script

open Text

/-- The first fault of a text is a count that is too large: the lines before it are programs,
    the last of them not at its end, and it is a condition that is well formed. -/
def BreaksOnCount (source : String) : Prop :=
  ∃ before l after, significant source.toList = before ++ l :: after ∧
    firstFault? false before = none ∧ insideAfter false before ∧ l.Oversized

/-- A compilation of a text has lost nothing of it. -/
structure KeepsText (source : String) (c : Compilation) : Prop where
  nonempty : c.programs ≠ []
  ends : ∀ p ∈ c.programs, ∃ text, p.sourceText = some text ∧ source.toList <:+ text.toList
  /-- A script is kept as it is, and its programs are those that are read. -/
  accepted : ∀ ps, readAll source = .ok ps →
    (∀ p ∈ c.programs, p.sourceText = some source) ∧
      c.programs.map Program.name = ps.map Program.name ∧
      c.programs.map Program.instructions = ps.map Program.instructions
  /-- Any other text is kept by one program that does nothing. -/
  refused : ∀ e, readAll source = .error e → ∃ p, c.programs = [p] ∧ p.instructions = []

/-! ## Texts that break -/

/-- A condition neither begins nor ends a program. -/
theorem Line.Oversized.isInner {l : Line} (h : l.Oversized) : l.isInner :=
  isInner_of_words (words_if h.1) (by decide) (by decide)

/-- The errors that are no faults of the syntax come from oversized counts inside programs. -/
theorem fault?_eq_some_not_malformed_iff {l : Line} {inside : Bool} :
    (∃ e, l.fault? inside = some e ∧ ∀ s, e ≠ .malformed s) ↔ inside ∧ l.Oversized := by
  constructor
  · rintro ⟨e, fault, other⟩
    unfold Line.fault? at fault
    split at fault
    · cases fault
    · split at fault
      · rename_i isInside
        exact ⟨isInside, oversized_iff.2 ⟨e, fault?_eq_some_iff.1 fault, other⟩⟩
      · cases fault
        exact absurd rfl (other _)
  · rintro ⟨rfl, large⟩
    obtain ⟨e, fails, other⟩ := oversized_iff.1 large
    exact ⟨e, by rw [fault?_of_isInner large.isInner, fails, fault?_error], other⟩

/-- A text breaks on a count iff it cannot be read, for another reason than its syntax. -/
theorem breaksOnCount_iff {source : String} :
    BreaksOnCount source ↔ ∃ e, readAll source = .error e ∧ ∀ s, e ≠ .malformed s := by
  simp only [← fault?_eq_some_iff, fault?_readAll]
  split
  · rename_i none
    simp [BreaksOnCount, none]
  · -- On either side it is the first fault that counts, and no line before it has any.
    constructor
    · rintro ⟨before, l, after, eq, ok, inside, large⟩
      obtain ⟨e, fault, other⟩ := fault?_eq_some_not_malformed_iff.2 ⟨inside, large⟩
      exact ⟨e, firstFault?_eq_some_iff.2 ⟨before, l, after, eq, ok, fault⟩, other⟩
    · rintro ⟨e, first, other⟩
      obtain ⟨before, l, after, eq, ok, fault⟩ := firstFault?_eq_some_iff.1 first
      obtain ⟨inside, large⟩ := fault?_eq_some_not_malformed_iff.1 ⟨e, fault, other⟩
      exact ⟨before, l, after, eq, ok, inside, large⟩

/-- Only what is malformed is kept when it cannot be read. -/
theorem compile_eq_error {source : String} {e : ReadError} (h : readAll source = .error e)
    (other : ∀ s, e ≠ .malformed s) : compile source = .error e := by
  rw [compile]
  rw [h]
  cases e with
  | malformed s => exact absurd rfl (other s)
  | countTooLong digits => rfl
  | countTooLarge => rfl

/-! ## Texts that are kept -/

/-- A text that is read has a program. -/
theorem ne_nil_of_readAll {source : String} {ps : List Program} (h : readAll source = .ok ps) :
    ps ≠ [] := by
  rintro rfl
  rw [readAll] at h
  split at h
  · cases h
  · rename_i some
    -- Without a program there is no chunk, and all lines are in chunks.
    have none : chunks (significant source.toList) = [] :=
      List.forall₂_nil_right_iff.1 (mapM_eq_ok_iff.1 h)
    have := flatMap_chunks (significant source.toList)
    rw [none] at this
    exact some this.symm

/-- A text stands unchanged at the end of what is kept of it. -/
theorem suffix_annotate (source message : String) :
    source.toList <:+ (annotate source message).toList := by
  unfold annotate
  simp only [String.toList_append]
  exact List.suffix_append _ _

/-- A script is kept in each of its programs. -/
theorem keepsText_compiled {source : String} {ps : List Program} (h : readAll source = .ok ps) :
    KeepsText source (.compiled (ps.map fun p => { p with sourceText := some source })) where
  nonempty := by simpa [Compilation.programs] using ne_nil_of_readAll h
  ends p hp := by
    obtain ⟨q, _, rfl⟩ := List.mem_map.1 hp
    exact ⟨source, rfl, List.suffix_rfl⟩
  accepted qs hq := by
    obtain rfl := Except.ok.inj (h.symm.trans hq)
    simp [Compilation.programs, Function.comp_def]
  refused e he := by
    rw [h] at he
    cases he

/-- A malformed text is kept below its note. -/
theorem keepsText_kept {source : String} {e : SyntaxError}
    (h : readAll source = .error (.malformed e)) (name : String) :
    KeepsText source (.kept ⟨name, [], some (annotate source e.message)⟩ e) where
  nonempty := by simp [Compilation.programs]
  ends p hp := by
    obtain rfl := List.mem_singleton.1 hp
    exact ⟨_, rfl, suffix_annotate _ _⟩
  accepted qs hq := by
    rw [h] at hq
    cases hq
  refused _ _ := ⟨_, rfl, rfl⟩

/-- A text is kept iff its first fault is no oversized count. -/
theorem exists_keepsText_iff (source : String) :
    (∃ c, compile source = .ok c ∧ KeepsText source c) ↔ ¬BreaksOnCount source := by
  rw [breaksOnCount_iff]
  cases h : readAll source with
  | ok ps =>
    refine iff_of_true ⟨_, ?_, keepsText_compiled h⟩ (by simp)
    rw [compile, h]
  | error e =>
    cases e with
    | malformed e =>
      refine iff_of_true ⟨_, ?_, keepsText_kept h (guessName source)⟩ (by simp)
      rw [compile, h]
    | countTooLong digits => simp [compile_eq_error h nofun]
    | countTooLarge => simp [compile_eq_error h nofun]

/-- Four hundred digits are short enough to be converted, but no number can hold their value. -/
theorem not_keepsText_of_four_hundred_digits :
    let source := String.ofList
      ("def p\nif a hits b ".toList ++ List.replicate 400 '9' ++ " times".toList)
    ¬∃ c, compile source = .ok c ∧ KeepsText source c := by
  intro source
  let condition := "if a hits b ".toList ++ List.replicate 400 '9' ++ " times".toList
  have lines : significant source.toList = [⟨1, "def p".toList⟩, ⟨2, condition⟩] := by
    rw [String.toList_ofList]
    decide +kernel
  have spelled : words condition =
      ["if".toList, "a".toList, "hits".toList, "b".toList, List.replicate 400 '9',
        "times".toList] := by
    decide +kernel
  have count : countDigits? (List.replicate 400 '9') = some (List.replicate 400 9) := by
    decide +kernel
  -- From this bound on, an integer is rounded beyond the range.
  have large : 2 ^ 1024 - 2 ^ 970 ≤ ofDigits (List.replicate 400 9) := by decide +kernel
  have breaks : BreaksOnCount source := by
    refine ⟨[⟨1, "def p".toList⟩], ⟨2, condition⟩, [], lines, by decide, by decide, ?_, ?_⟩
    · decide +kernel
    · rw [spelled]
      exact .condition count (.inr large)
  obtain ⟨e, fails, other⟩ := breaksOnCount_iff.1 breaks
  rintro ⟨c, compiles, _⟩
  rw [compile_eq_error fails other] at compiles
  cases compiles

end Carom.Script
