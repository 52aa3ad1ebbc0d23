import Carom.Text.Line

/-!
# Texts between line breaks

Lines of a text one at a time: a stretch without a break is a line of its own at the end of
the text, and in front of a break (`lines_of_unbroken`, `lines_append_break`,
`lines_append_crlf`). So lines that were put together come apart again as they were, unless
the last one is empty and leaves no trace (`lines_join`). Whole texts come apart at a line feed
between them, which may end an empty line or go with a carriage return before it
(`lines_append_feed`).
-/

namespace Carom.Text

/-- A text without a line break. -/
def Unbroken (cs : List Char) : Prop := ∀ c ∈ cs, isLineBreak c = false

theorem Unbroken.append {cs ds : List Char} (hc : Unbroken cs) (hd : Unbroken ds) :
    Unbroken (cs ++ ds) := fun c h => (List.mem_append.1 h).elim (hc c) (hd c)

/-- No line of a text has a break in it. -/
theorem unbroken_of_mem_lines {cs l : List Char} (h : l ∈ lines cs) : Unbroken l :=
  fun _ hc => not_isLineBreak_of_mem_lines h hc

theorem linesFrom_nil (line : List Char) :
    linesFrom line [] = if line.isEmpty then [] else [line.reverse] := by
  cases line <;> rfl

theorem linesFrom_crlf (line cs : List Char) :
    linesFrom line ('\r' :: '\n' :: cs) = line.reverse :: linesFrom [] cs := by
  cases line <;> rfl

/-- But for a carriage return in front of a feed, a character ends a line or belongs to it. -/
theorem linesFrom_cons {c : Char} {cs : List Char} (plain : c = '\r' → cs.head? ≠ some '\n')
    (line : List Char) : linesFrom line (c :: cs) =
      if isLineBreak c then line.reverse :: linesFrom [] cs else linesFrom (c :: line) cs := by
  rw [linesFrom.eq_def]
  split
  · rename_i h
    cases h
  · rename_i h
    cases h
  · rename_i h
    cases h
    exact absurd rfl (plain rfl)
  · rename_i h
    cases h
    rfl

/-- Characters without a break all go to the same line. -/
theorem linesFrom_append {l : List Char} (h : Unbroken l) (line rest : List Char) :
    linesFrom line (l ++ rest) = linesFrom (l.reverse ++ line) rest := by
  induction l generalizing line with
  | nil => rfl
  | cons c l ih =>
    have hc : isLineBreak c = false := h c List.mem_cons_self
    have plain : c = '\r' → (l ++ rest).head? ≠ some '\n' := by
      rintro rfl
      exact absurd hc (by decide)
    rw [List.cons_append, linesFrom_cons plain, hc, if_neg Bool.false_ne_true,
      ih fun d hd => h d (List.mem_cons_of_mem _ hd), List.reverse_cons, List.append_assoc]
    rfl

/-- A text without a break is one line. -/
theorem lines_of_unbroken {l : List Char} (h : Unbroken l) (ne : l ≠ []) : lines l = [l] := by
  rw [lines, ← List.append_nil l, linesFrom_append h, linesFrom_nil, if_neg (by simpa using ne)]
  simp

/-- A line in front of a break that is one character. -/
theorem lines_append_break {l : List Char} (h : Unbroken l) {c : Char} (hc : isLineBreak c)
    {rest : List Char} (plain : c = '\r' → rest.head? ≠ some '\n') :
    lines (l ++ c :: rest) = l :: lines rest := by
  rw [lines, linesFrom_append h, linesFrom_cons plain, if_pos hc, List.append_nil,
    List.reverse_reverse, lines]

/-- A line in front of a carriage return with a line feed behind it, which are one break. -/
theorem lines_append_crlf {l : List Char} (h : Unbroken l) (rest : List Char) :
    lines (l ++ '\r' :: '\n' :: rest) = l :: lines rest := by
  rw [lines, linesFrom_append h, linesFrom_crlf, List.append_nil, List.reverse_reverse, lines]

theorem join_cons_cons (l m : List Char) (ls : List (List Char)) :
    join (l :: m :: ls) = l ++ '\n' :: join (m :: ls) := rfl

/-- Lines come apart as they were put together, but empty ones at the end may leave no trace. -/
theorem exists_lines_join {ls : List (List Char)} (h : ∀ l ∈ ls, Unbroken l) :
    ∃ pad, (∀ l ∈ pad, l = []) ∧ lines (join ls) ++ pad = ls := by
  induction ls with
  | nil => exact ⟨[], nofun, rfl⟩
  | cons l ls ih =>
    have hl : Unbroken l := h l List.mem_cons_self
    cases ls with
    | nil =>
      cases l with
      | nil => exact ⟨[[]], by simp, rfl⟩
      | cons c l =>
        refine ⟨[], nofun, ?_⟩
        rw [List.append_nil]
        exact lines_of_unbroken hl (List.cons_ne_nil c l)
    | cons m ls =>
      obtain ⟨pad, empty, rest⟩ := ih fun k hk => h k (List.mem_cons_of_mem _ hk)
      have plain : '\n' = '\r' → (join (m :: ls)).head? ≠ some '\n' := fun h => absurd h (by decide)
      refine ⟨pad, empty, ?_⟩
      rw [join_cons_cons, lines_append_break hl (by decide) plain, List.cons_append, rest]

/-- Lines come apart as they were put together, if the last one is not empty. -/
theorem lines_join {ls : List (List Char)} (h : ∀ l ∈ ls, Unbroken l)
    (last : ∀ l ∈ ls.getLast?, l ≠ []) : lines (join ls) = ls := by
  obtain ⟨pad, empty, eq⟩ := exists_lines_join h
  cases found : pad.getLast? with
  | none => rwa [List.getLast?_eq_none_iff.1 found, List.append_nil] at eq
  | some l =>
    have atEnd : ls.getLast? = some l := by
      rw [← eq, List.getLast?_append, found]
      rfl
    exact absurd (empty l (List.mem_of_getLast? found)) (last l atEnd)

/-- The lines of a text are not changed by what comes behind a line feed; if the text ends in a
    line break already, the line feed ends an empty line. -/
theorem exists_linesFrom_append_feed (line a : List Char) : ∃ pad, (∀ l ∈ pad, l = []) ∧
    ∀ b, linesFrom line (a ++ '\n' :: b) = linesFrom line a ++ (pad ++ lines b) := by
  have feed (line b : List Char) : linesFrom line ('\n' :: b) = line.reverse :: lines b := by
    rw [linesFrom_cons (fun h => absurd h (by decide)), if_pos (by decide), lines]
  fun_induction linesFrom line a with
  | case1 => exact ⟨[[]], by simp, fun b => feed [] b⟩
  | case2 line nonempty => exact ⟨[], by simp, fun b => feed line b⟩
  | case3 line cs ih =>
    obtain ⟨pad, blank, all⟩ := ih
    refine ⟨pad, blank, fun b => ?_⟩
    rw [List.cons_append, List.cons_append, linesFrom_crlf, all, List.cons_append]
  | case4 line c cs other isBreak ih =>
    obtain ⟨pad, blank, all⟩ := ih
    cases cs with
    | nil =>
      by_cases isReturn : c = '\r'
      · -- The line feed goes with the carriage return.
        subst isReturn
        exact ⟨[], by simp, fun b => linesFrom_crlf line b⟩
      · refine ⟨pad, blank, fun b => ?_⟩
        rw [List.cons_append, linesFrom_cons fun h => absurd h isReturn, if_pos isBreak, all]
        rfl
    | cons d cs =>
      refine ⟨pad, blank, fun b => ?_⟩
      have plain : c = '\r' → (d :: cs ++ '\n' :: b).head? ≠ some '\n' := by
        rintro rfl same
        obtain rfl := Option.some.inj same
        exact other cs rfl rfl
      rw [List.cons_append, linesFrom_cons plain, if_pos isBreak, all]
      rfl
  | case5 line c cs other notBreak ih =>
    obtain ⟨pad, blank, all⟩ := ih
    refine ⟨pad, blank, fun b => ?_⟩
    have plain : c = '\r' → (cs ++ '\n' :: b).head? ≠ some '\n' := by
      rintro rfl
      exact absurd (by decide) notBreak
    rw [List.cons_append, linesFrom_cons plain, if_neg notBreak, all]

/-- A line feed separates the lines of two texts, whatever the first one ends in. -/
theorem lines_append_feed (a b : List Char) :
    lines (a ++ '\n' :: b) = lines (a ++ ['\n']) ++ lines b := by
  obtain ⟨pad, -, all⟩ := exists_linesFrom_append_feed [] a
  rw [lines, lines, all, all]
  simp [lines, linesFrom]

/-- A line feed at the end adds nothing to the lines but an empty one, if any. -/
theorem exists_lines_feed (a : List Char) :
    ∃ pad, (∀ l ∈ pad, l = []) ∧ lines (a ++ ['\n']) = lines a ++ pad := by
  obtain ⟨pad, blank, all⟩ := exists_linesFrom_append_feed [] a
  exact ⟨pad, blank, by simpa [lines, linesFrom] using all []⟩

end Carom.Text
