import Carom.Text.Blank

/-!
# Texts between blanks

What trimming leaves and what splitting at blanks gives, said without the way in which the
text is gone through.

* `trim_append`, `exists_trim`: a text without a blank at either end is what trimming leaves
  of it with blanks around it, and every text is of that form.
* `words_eq_iff`: the words of a text are what the text puts between blanks (`Separated`).
-/

namespace Carom.Text

/-! ## Trimming -/

/-- A text that is nothing but blanks. -/
def AllBlank (cs : List Char) : Prop := ∀ c ∈ cs, isBlank c

/-- A text with no blank at its ends. -/
structure Trimmed (cs : List Char) : Prop where
  first : ∀ c ∈ cs.head?, isBlank c = false
  last : ∀ c ∈ cs.getLast?, isBlank c = false

theorem allBlank_nil : AllBlank [] := nofun

theorem allBlank_singleton {c : Char} (h : isBlank c) : AllBlank [c] := by simpa [AllBlank] using h

theorem AllBlank.append {cs ds : List Char} (hc : AllBlank cs) (hd : AllBlank ds) :
    AllBlank (cs ++ ds) := fun c h => (List.mem_append.1 h).elim (hc c) (hd c)

theorem trimmed_nil : Trimmed [] := ⟨nofun, nofun⟩

/-- Blanks in front do not matter to what is left without them. -/
theorem dropWhile_isBlank_append {gap : List Char} (h : AllBlank gap) (cs : List Char) :
    (gap ++ cs).dropWhile isBlank = cs.dropWhile isBlank :=
  List.dropWhile_append_of_pos h

theorem dropWhile_isBlank_of_head? {cs : List Char} (h : ∀ c ∈ cs.head?, isBlank c = false) :
    cs.dropWhile isBlank = cs := by
  cases cs with
  | nil => rfl
  | cons c cs => rw [List.dropWhile_cons_of_neg (by simp [h c rfl])]

theorem dropWhile_isBlank_of_allBlank {cs : List Char} (h : AllBlank cs) :
    cs.dropWhile isBlank = [] := by
  simpa using dropWhile_isBlank_append h []

/-- Trimming takes away the blanks around a text that has none at its ends. -/
theorem trim_append {gap text pad : List Char} (hgap : AllBlank gap) (h : Trimmed text)
    (hpad : AllBlank pad) : trim isBlank (gap ++ (text ++ pad)) = text := by
  have back : AllBlank pad.reverse := fun c hc => hpad c (List.mem_reverse.1 hc)
  rw [trim, dropWhile_isBlank_append hgap]
  cases text with
  | nil => rw [List.nil_append, dropWhile_isBlank_of_allBlank hpad]; rfl
  | cons c cs =>
    -- A text that is not empty keeps the front of what follows the gap in place.
    have front : (c :: cs ++ pad).dropWhile isBlank = c :: cs ++ pad :=
      dropWhile_isBlank_of_head? (by simpa using h.first)
    rw [front, trimEnd, List.reverse_append, dropWhile_isBlank_append back,
      dropWhile_isBlank_of_head? (by rw [List.head?_reverse]; exact h.last),
      List.reverse_reverse]

/-- A text without blanks at its ends is left as it is. -/
theorem Trimmed.trim_eq {cs : List Char} (h : Trimmed cs) : trim isBlank cs = cs := by
  simpa using trim_append allBlank_nil h allBlank_nil

theorem trim_of_allBlank {gap : List Char} (h : AllBlank gap) : trim isBlank gap = [] := by
  simpa using trim_append h trimmed_nil allBlank_nil

/-- A blank in front of a text makes no difference. -/
theorem trim_cons {c : Char} (h : isBlank c) (cs : List Char) :
    trim isBlank (c :: cs) = trim isBlank cs := by
  rw [trim, trim, List.dropWhile_cons_of_pos h]

/-- Every text is what is left of it with blanks around it. -/
theorem exists_trim (cs : List Char) : ∃ gap pad, AllBlank gap ∧ AllBlank pad ∧
    Trimmed (trim isBlank cs) ∧ cs = gap ++ (trim isBlank cs ++ pad) := by
  have taken (l : List Char) : AllBlank (l.takeWhile isBlank) :=
    fun c => List.all_eq_true.1 List.all_takeWhile c
  let rest := cs.dropWhile isBlank
  have back : rest = trim isBlank cs ++ (rest.reverse.takeWhile isBlank).reverse := by
    rw [trim, trimEnd, ← List.reverse_append, List.takeWhile_append_dropWhile,
      List.reverse_reverse]
  refine ⟨cs.takeWhile isBlank, (rest.reverse.takeWhile isBlank).reverse, taken cs,
    fun c hc => taken _ c (List.mem_reverse.1 hc), ⟨?_, ?_⟩, ?_⟩
  · -- What is left begins as the text does behind its first blanks, if it is not empty.
    intro c hc
    have front : c ∈ rest.head? := by
      rw [back]
      cases h : trim isBlank cs with
      | nil => simp [h] at hc
      | cons d ds => simpa [h] using hc
    have := List.head?_dropWhile_not isBlank cs
    rw [show (cs.dropWhile isBlank).head? = some c from front] at this
    simpa using this
  · intro c hc
    rw [trim, trimEnd, List.getLast?_reverse] at hc
    have := List.head?_dropWhile_not isBlank rest.reverse
    rw [hc] at this
    simpa using this
  · rw [← back, List.takeWhile_append_dropWhile]

/-- What is left of a text has no blanks at its ends. -/
theorem trimmed_trim (cs : List Char) : Trimmed (trim isBlank cs) := by
  obtain ⟨_, _, _, _, trimmed, _⟩ := exists_trim cs
  exact trimmed

/-- A text that leaves nothing is blank. -/
theorem trim_eq_nil_iff {cs : List Char} : trim isBlank cs = [] ↔ AllBlank cs := by
  refine ⟨fun nothing => ?_, trim_of_allBlank⟩
  obtain ⟨gap, pad, front, back, -, eq⟩ := exists_trim cs
  rw [eq, nothing, List.nil_append]
  exact front.append back

/-- A text with no blank at its end does not end in blanks. -/
theorem Trimmed.eq_nil_of_append {cs pad : List Char} (h : Trimmed (cs ++ pad))
    (blank : AllBlank pad) : pad = [] := by
  cases found : pad.getLast? with
  | none => exact List.getLast?_eq_none_iff.1 found
  | some c =>
    have isLast : c ∈ (cs ++ pad).getLast? := by
      rw [List.getLast?_append, found]
      rfl
    have := blank c (List.mem_of_getLast? found)
    rw [h.last c isLast] at this
    cases this

/-- A text without a character of the class is left as it is. -/
theorem trim_eq_self {cut : Char → Bool} {cs : List Char} (h : ∀ c ∈ cs, cut c = false) :
    trim cut cs = cs := by
  have kept {l : List Char} (h : ∀ c ∈ l, cut c = false) : l.dropWhile cut = l := by
    cases l with
    | nil => rfl
    | cons c l => rw [List.dropWhile_cons_of_neg (by simp [h c List.mem_cons_self])]
  rw [trim, trimEnd, kept h, kept fun c mem => h c (List.mem_reverse.1 mem), List.reverse_reverse]

/-! ## Words -/

/-- A text and the words in it: blanks stand between two words, and may stand around them. -/
inductive Separated : List Char → List (List Char) → Prop
  | blanks {gap : List Char} : AllBlank gap → Separated gap []
  | word {gap word rest : List Char} {words : List (List Char)} : AllBlank gap → word ≠ [] →
      (∀ c ∈ word, isBlank c = false) → (∀ c ∈ rest.head?, isBlank c) → Separated rest words →
      Separated (gap ++ (word ++ rest)) (word :: words)

theorem wordsFrom_nil (word : List Char) :
    wordsFrom word [] = if word.isEmpty then [] else [word.reverse] := by
  cases word <;> rfl

@[simp] theorem words_nil : words [] = [] := rfl

theorem wordsFrom_cons (word : List Char) (c : Char) (cs : List Char) :
    wordsFrom word (c :: cs) =
      if isBlank c then if word.isEmpty then wordsFrom [] cs else word.reverse :: wordsFrom [] cs
      else wordsFrom (c :: word) cs := by
  cases word <;> rfl

/-- Characters that are not blank all go to the same word. -/
theorem wordsFrom_append {word w : List Char} (h : ∀ c ∈ w, isBlank c = false)
    (rest : List Char) : wordsFrom word (w ++ rest) = wordsFrom (w.reverse ++ word) rest := by
  induction w generalizing word with
  | nil => rfl
  | cons c w ih =>
    have hc : isBlank c = false := h c List.mem_cons_self
    rw [List.cons_append, wordsFrom_cons, hc, if_neg Bool.false_ne_true,
      ih fun d hd => h d (List.mem_cons_of_mem _ hd), List.reverse_cons, List.append_assoc]
    rfl

theorem words_cons {c : Char} (h : isBlank c) (cs : List Char) : words (c :: cs) = words cs := by
  rw [words, wordsFrom_cons, if_pos h, if_pos (by rfl), words]

/-- Blanks in front of a text hold no word. -/
theorem words_append_gap {gap : List Char} (h : AllBlank gap) (cs : List Char) :
    words (gap ++ cs) = words cs := by
  induction gap with
  | nil => rfl
  | cons c gap ih =>
    rw [List.cons_append, words_cons (h c List.mem_cons_self),
      ih fun d hd => h d (List.mem_cons_of_mem _ hd)]

/-- A word in front of a text that does not go on with it. -/
theorem words_append_word {word rest : List Char} (ne : word ≠ [])
    (unbroken : ∀ c ∈ word, isBlank c = false) (ends : ∀ c ∈ rest.head?, isBlank c) :
    words (word ++ rest) = word :: words rest := by
  rw [words, wordsFrom_append unbroken, List.append_nil]
  cases rest with
  | nil => rw [wordsFrom_nil, if_neg (by simpa using ne), List.reverse_reverse, words_nil]
  | cons c rest =>
    have hc : isBlank c := ends c rfl
    rw [wordsFrom_cons, if_pos hc, if_neg (by simpa using ne), List.reverse_reverse,
      words_cons hc, words]

/-- More blanks in front make no difference. -/
theorem Separated.append_gap {gap cs : List Char} {ws : List (List Char)} (hgap : AllBlank gap)
    (h : Separated cs ws) : Separated (gap ++ cs) ws := by
  cases h with
  | blanks hgap' => exact .blanks (hgap.append hgap')
  | word hgap' ne unbroken ends rest =>
    rw [← List.append_assoc]
    exact .word (hgap.append hgap') ne unbroken ends rest

theorem Separated.cons {word rest : List Char} {ws : List (List Char)} (ne : word ≠ [])
    (unbroken : ∀ c ∈ word, isBlank c = false) (ends : ∀ c ∈ rest.head?, isBlank c)
    (h : Separated rest ws) : Separated (word ++ rest) (word :: ws) := by
  have noGap := Separated.word allBlank_nil ne unbroken ends h
  exact noGap

/-- A text is made of the words that are read from it. -/
theorem separated_wordsFrom {word : List Char} (unbroken : ∀ c ∈ word, isBlank c = false)
    (cs : List Char) : Separated (word.reverse ++ cs) (wordsFrom word cs) := by
  fun_induction wordsFrom word cs with
  | case1 => exact .blanks allBlank_nil
  | case2 word ne =>
    exact .cons (by simpa using ne) (by simpa using unbroken) (by simp) (.blanks allBlank_nil)
  | case3 word c cs hc empty ih =>
    obtain rfl := List.isEmpty_iff.1 empty
    rw [List.reverse_nil, List.nil_append]
    exact Separated.append_gap (allBlank_singleton hc) (ih (List.forall_mem_nil _))
  | case4 word c cs hc nonempty ih =>
    have rest : Separated (c :: cs) (wordsFrom [] cs) :=
      Separated.append_gap (allBlank_singleton hc) (ih (List.forall_mem_nil _))
    exact .cons (by simpa using nonempty) (by simpa using unbroken) (by simpa using hc) rest
  | case5 word c cs hc ih =>
    have := ih fun d hd => (List.mem_cons.1 hd).elim (· ▸ by simpa using hc) (unbroken d)
    simpa using this

/-- The words of a text are what it puts between blanks. -/
theorem words_eq_iff {cs : List Char} {ws : List (List Char)} :
    words cs = ws ↔ Separated cs ws := by
  constructor
  · rintro rfl
    exact @separated_wordsFrom [] nofun cs
  · intro h
    induction h with
    | blanks hgap => simpa using words_append_gap hgap []
    | word hgap ne unbroken ends _ ih =>
      rw [words_append_gap hgap, words_append_word ne unbroken ends, ih]

end Carom.Text
