import Carom.Text.Blank

/-!
# Lines

A text is split at every line break of Unicode and of the information separators
(`lines`); carriage return and line feed together are one break. A break ends a
line, so a text that ends in one has no empty line after it, and the empty text
has no line. `join` puts lines together with a line feed between each two.
-/

namespace Carom.Text

/-- A character that ends a line: line feed, vertical tabulation, form feed,
    carriage return, the file, group and record separators, next line, and the
    line and paragraph separators. -/
def isLineBreak (c : Char) : Bool :=
  let n := c.toNat
  (10 ≤ n && n ≤ 13) || (28 ≤ n && n ≤ 30) || n == 0x85 || n == 0x2028 || n == 0x2029

/-- Whatever ends a line is blank. -/
theorem isBlank_of_isLineBreak {c : Char} (h : isLineBreak c) : isBlank c := by
  simp only [isLineBreak, isBlank, isWhiteSpace, Bool.or_eq_true, Bool.and_eq_true,
    decide_eq_true_eq, beq_iff_eq] at h ⊢
  omega

/-- A line in progress, last character first, followed by the lines of the rest. -/
def linesFrom : List Char → List Char → List (List Char)
  | [], [] => []
  | line, [] => [line.reverse]
  | line, '\r' :: '\n' :: cs => line.reverse :: linesFrom [] cs
  | line, c :: cs =>
    if isLineBreak c then line.reverse :: linesFrom [] cs else linesFrom (c :: line) cs

/-- The lines of a text, without their breaks. -/
def lines (cs : List Char) : List (List Char) := linesFrom [] cs

theorem not_isLineBreak_of_mem_linesFrom {line cs l : List Char} {c : Char}
    (h : ∀ d ∈ line, isLineBreak d = false) (hl : l ∈ linesFrom line cs) (hc : c ∈ l) :
    isLineBreak c = false := by
  fun_induction linesFrom line cs with
  | case1 => simp at hl
  | case2 line =>
    rw [List.mem_singleton] at hl
    exact h c (by simpa [hl] using hc)
  | case3 line cs ih =>
    rcases List.mem_cons.1 hl with rfl | hl
    · exact h c (by simpa using hc)
    · exact ih (by simp) hl
  | case4 line d cs _ hd ih =>
    rcases List.mem_cons.1 hl with rfl | hl
    · exact h c (by simpa using hc)
    · exact ih (by simp) hl
  | case5 line d cs _ hd ih =>
    refine ih (fun e he => ?_) hl
    rcases List.mem_cons.1 he with rfl | he
    · simpa using hd
    · exact h e he

/-- A line holds no break. -/
theorem not_isLineBreak_of_mem_lines {cs l : List Char} {c : Char} (hl : l ∈ lines cs)
    (hc : c ∈ l) : isLineBreak c = false :=
  not_isLineBreak_of_mem_linesFrom (by simp) hl hc

/-- Lines with a line feed between each two. -/
def join : List (List Char) → List Char
  | [] => []
  | [line] => line
  | line :: rest => line ++ '\n' :: join rest

end Carom.Text
