import Carom.Proofs.Text.Blank
import Carom.Proofs.Text.Line
import Carom.Script.Line

/-!
# The layout of a script

The lines of a script that are not blank, each without the blanks around it, are all that a
reader looks at. A text lays them out (`Laid`): any blanks and line breaks may stand before a
line, between two lines and behind the last one, as long as a line break of any kind ends
each line. `significant_eq_iff` says that these are the lines that are found.
-/

namespace Carom.Script

open Text

/-- The texts of the lines that are not blank, without the blanks around them. -/
def trimmedTexts (ls : List (List Char)) : List (List Char) :=
  (ls.map (trim isBlank)).filter fun text => !text.isEmpty

@[simp] theorem trimmedTexts_nil : trimmedTexts [] = [] := rfl

theorem trimmedTexts_cons (l : List Char) (ls : List (List Char)) :
    trimmedTexts (l :: ls) = trimmedTexts [l] ++ trimmedTexts ls := by
  simp only [trimmedTexts, ← List.filter_append, ← List.map_append, List.singleton_append]

theorem trimmedTexts_cons_of_allBlank {l : List Char} (h : AllBlank l) (ls : List (List Char)) :
    trimmedTexts (l :: ls) = trimmedTexts ls := by
  simp [trimmedTexts, trim_of_allBlank h]

theorem trimmedTexts_cons_of_ne_nil {l : List Char} (h : trim isBlank l ≠ [])
    (ls : List (List Char)) : trimmedTexts (l :: ls) = trim isBlank l :: trimmedTexts ls := by
  simp [trimmedTexts, h]

/-- The lines that count are the trimmed texts, whatever their numbers are. -/
theorem map_text_significantFrom (n : Nat) (ls : List (List Char)) :
    (significantFrom n ls).map Line.text = trimmedTexts ls := by
  induction ls generalizing n with
  | nil => rfl
  | cons l ls ih =>
    rw [significantFrom]
    split
    · rename_i empty
      rw [ih, trimmedTexts, trimmedTexts, List.map_cons,
        List.filter_cons_of_neg (by simpa using empty)]
    · rename_i nonempty
      rw [List.map_cons, ih, trimmedTexts_cons_of_ne_nil (by simpa using nonempty)]

/-- The texts of the lines of a text that are not blank. -/
def significantTexts (source : List Char) : List (List Char) := trimmedTexts (lines source)

theorem map_text_significant (source : List Char) :
    (significant source).map Line.text = significantTexts source :=
  map_text_significantFrom 1 _

/-- A text and its lines that are not blank, without the blanks around them. Line breaks are
    blanks as well, so the gap before a line may hold any number of them. -/
inductive Laid : List Char → List (List Char) → Prop
  | blank {gap : List Char} : AllBlank gap → Laid gap []
  | line {gap text pad rest : List Char} {texts : List (List Char)} :
      AllBlank gap → text ≠ [] → Trimmed text → Unbroken text →
      AllBlank pad → Unbroken pad → (∀ c ∈ rest.head?, isLineBreak c) → Laid rest texts →
      Laid (gap ++ (text ++ (pad ++ rest))) (text :: texts)

/-- A line in front of a break, whatever its kind. -/
theorem significantTexts_append_break {l : List Char} (h : Unbroken l) {c : Char}
    (hc : isLineBreak c) (rest : List Char) :
    significantTexts (l ++ c :: rest) = trimmedTexts (l :: lines rest) := by
  by_cases crlf : c = '\r' ∧ rest.head? = some '\n'
  · obtain ⟨rfl, feed⟩ := crlf
    cases rest with
    | nil => cases feed
    | cons d rest =>
      obtain rfl := Option.some.inj feed
      -- The line feed alone would end one more line, but an empty one.
      have alone : lines ('\n' :: rest) = [] :: lines rest :=
        lines_append_break (l := []) nofun (by decide) fun h => absurd h (by decide)
      rw [significantTexts, lines_append_crlf h, alone, trimmedTexts_cons l (lines rest),
        trimmedTexts_cons l ([] :: lines rest), trimmedTexts_cons_of_allBlank allBlank_nil]
  · rw [significantTexts, lines_append_break h hc fun isReturn feed => crlf ⟨isReturn, feed⟩]

/-- A text without a break is one line. -/
theorem significantTexts_of_unbroken {l : List Char} (h : Unbroken l) :
    significantTexts l = trimmedTexts [l] := by
  cases l with
  | nil => rfl
  | cons c l => rw [significantTexts, lines_of_unbroken h (List.cons_ne_nil c l)]

/-- A text is a stretch without a break, and then nothing or a break and another text. -/
theorem exists_unbroken (cs : List Char) : ∃ l rest, cs = l ++ rest ∧ Unbroken l ∧
    ∀ c ∈ rest.head?, isLineBreak c := by
  refine ⟨cs.takeWhile (!isLineBreak ·), cs.dropWhile (!isLineBreak ·),
    List.takeWhile_append_dropWhile.symm, fun c hc => ?_, fun c hc => ?_⟩
  · simpa using List.all_eq_true.1 List.all_takeWhile c hc
  · have := List.head?_dropWhile_not (!isLineBreak ·) cs
    rw [hc] at this
    simpa using this

/-- The first stretch of a text is a line, or nothing if it is blank. -/
theorem significantTexts_append {l rest : List Char} (h : Unbroken l)
    (hrest : ∀ c ∈ rest.head?, isLineBreak c) :
    significantTexts (l ++ rest) = trimmedTexts [l] ++ significantTexts rest := by
  cases rest with
  | nil =>
    rw [List.append_nil, significantTexts_of_unbroken h]
    exact (List.append_nil _).symm
  | cons c rest =>
    have hc : isLineBreak c := hrest c rfl
    have behind := significantTexts_append_break (l := []) nofun hc rest
    rw [List.nil_append, trimmedTexts_cons_of_allBlank allBlank_nil] at behind
    rw [significantTexts_append_break h hc, behind, trimmedTexts_cons]

/-- A blank in front of a text makes no difference, be it a line break or not. -/
theorem significantTexts_cons {c : Char} (h : isBlank c) (cs : List Char) :
    significantTexts (c :: cs) = significantTexts cs := by
  cases hc : isLineBreak c with
  | true =>
    have := significantTexts_append_break (l := []) nofun hc cs
    rwa [List.nil_append, trimmedTexts_cons_of_allBlank allBlank_nil] at this
  | false =>
    obtain ⟨l, rest, rfl, unbroken, ends⟩ := exists_unbroken cs
    have longer : Unbroken (c :: l) := fun d hd =>
      (List.mem_cons.1 hd).elim (· ▸ hc) (unbroken d)
    rw [← List.cons_append, significantTexts_append longer ends,
      significantTexts_append unbroken ends]
    simp only [trimmedTexts, List.map_cons, trim_cons h]

/-- Blanks in front of a text do not count. -/
theorem significantTexts_append_gap {gap : List Char} (h : AllBlank gap) (cs : List Char) :
    significantTexts (gap ++ cs) = significantTexts cs := by
  induction gap with
  | nil => rfl
  | cons c gap ih =>
    rw [List.cons_append, significantTexts_cons (h c List.mem_cons_self),
      ih fun d hd => h d (List.mem_cons_of_mem _ hd)]

/-- Blanks may be put in front of a layout. -/
theorem Laid.append_gap {gap cs : List Char} {texts : List (List Char)} (hgap : AllBlank gap)
    (h : Laid cs texts) : Laid (gap ++ cs) texts := by
  cases h with
  | blank hgap' => exact .blank (hgap.append hgap')
  | line hgap' ne trimmed unbroken blank unbroken' ends rest =>
    rw [← List.append_assoc]
    exact .line (hgap.append hgap') ne trimmed unbroken blank unbroken' ends rest

/-- What is laid out is what counts. -/
theorem Laid.significantTexts_eq {cs : List Char} {texts : List (List Char)} (h : Laid cs texts) :
    significantTexts cs = texts := by
  induction h with
  | blank hgap =>
    have := significantTexts_append_gap hgap []
    rwa [List.append_nil] at this
  | @line gap text pad rest texts hgap ne trimmed unbroken blank unbroken' ends _ ih =>
    have line : trim isBlank (text ++ pad) = text := trim_append allBlank_nil trimmed blank
    rw [significantTexts_append_gap hgap, ← List.append_assoc,
      significantTexts_append (unbroken.append unbroken') ends, ih,
      trimmedTexts_cons_of_ne_nil (by rwa [line]), line]
    rfl

/-- What is found in a text is what the text lays out. -/
theorem laid_significantTexts (cs : List Char) : Laid cs (significantTexts cs) := by
  obtain ⟨l, rest, eq, unbroken, ends⟩ := exists_unbroken cs
  obtain ⟨gap, pad, hgap, hpad, trimmed, around⟩ := exists_trim l
  have part {piece : List Char} (h : piece <:+: l) : Unbroken piece :=
    fun c hc => unbroken c (h.subset hc)
  rw [eq, significantTexts_append unbroken ends]
  by_cases blank : trim isBlank l = []
  · rw [blank] at around
    have hl : AllBlank l := around ▸ hgap.append hpad
    rw [trimmedTexts_cons_of_allBlank hl]
    refine Laid.append_gap hl ?_
    cases rest with
    | nil => exact .blank allBlank_nil
    | cons c rest =>
      -- The break goes with the gap, so that what is left is shorter than the text.
      have hc : isBlank c := isBlank_of_isLineBreak (ends c rfl)
      rw [trimmedTexts_nil, List.nil_append, significantTexts_cons hc]
      exact Laid.append_gap (allBlank_singleton hc) (laid_significantTexts rest)
  · rw [trimmedTexts_cons_of_ne_nil blank, around, List.append_assoc, List.append_assoc, ← around]
    have text : trim isBlank l <:+: l := ⟨gap, pad, by rw [List.append_assoc, ← around]⟩
    have behind : pad <:+: l := ⟨gap ++ trim isBlank l, [], by simp [← around]⟩
    exact .line hgap blank trimmed (part text) hpad (part behind) ends (laid_significantTexts rest)
termination_by cs.length
decreasing_by
  · simp only [eq, List.length_append, List.length_cons]
    omega
  · have : l ≠ [] := by
      rintro rfl
      exact blank rfl
    have := List.length_pos_iff.2 this
    simp only [eq, List.length_append]
    omega

/-- Which lines are found in a text. -/
theorem significantTexts_eq_iff {cs : List Char} {texts : List (List Char)} :
    significantTexts cs = texts ↔ Laid cs texts :=
  ⟨fun h => h ▸ laid_significantTexts cs, Laid.significantTexts_eq⟩

end Carom.Script
