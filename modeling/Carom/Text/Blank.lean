/-!
# Blanks and words

Two classes of characters that separate words: the white space of Unicode, and the
blanks, which are white space and the four information separators. `trim` drops the
characters of a class at both ends of a text and `words` splits a text at its blanks.
-/

namespace Carom.Text

/-- White space, as Unicode has it: tabulation to carriage return, space, next line, and
    the spaces and separators outside of ASCII. -/
def isWhiteSpace (c : Char) : Bool :=
  let n := c.toNat
  (9 ≤ n && n ≤ 13) || n == 32 || n == 0x85 || n == 0xA0 || n == 0x1680 ||
    (0x2000 ≤ n && n ≤ 0x200A) || n == 0x2028 || n == 0x2029 || n == 0x202F || n == 0x205F ||
    n == 0x3000

/-- White space, or one of the separators of files, groups, records and units. -/
def isBlank (c : Char) : Bool :=
  isWhiteSpace c || (28 ≤ c.toNat && c.toNat ≤ 31)

/-- White space of the core library, which is that of ASCII, is white space. -/
theorem isWhiteSpace_of_isWhitespace {c : Char} (h : c.isWhitespace) : isWhiteSpace c := by
  simp only [Char.isWhitespace, Bool.or_eq_true, decide_eq_true_eq] at h
  rcases h with ((rfl | rfl) | rfl) | rfl <;> decide

/-- White space is blank. -/
theorem isBlank_of_isWhiteSpace {c : Char} (h : isWhiteSpace c) : isBlank c := by
  simp [isBlank, h]

/-- The text without characters of a class at its end. -/
def trimEnd (cut : Char → Bool) (cs : List Char) : List Char :=
  (cs.reverse.dropWhile cut).reverse

/-- The text without characters of a class at its ends. -/
def trim (cut : Char → Bool) (cs : List Char) : List Char := trimEnd cut (cs.dropWhile cut)

/-- A word in progress, last character first, followed by the words of the rest. -/
def wordsFrom : List Char → List Char → List (List Char)
  | [], [] => []
  | word, [] => [word.reverse]
  | word, c :: cs =>
    if isBlank c then
      if word.isEmpty then wordsFrom [] cs else word.reverse :: wordsFrom [] cs
    else
      wordsFrom (c :: word) cs

/-- The longest parts of a text that hold no blank, in order. -/
def words (cs : List Char) : List (List Char) := wordsFrom [] cs

theorem word_of_mem_wordsFrom {word cs w : List Char} (h : ∀ d ∈ word, isBlank d = false)
    (hw : w ∈ wordsFrom word cs) : w ≠ [] ∧ ∀ c ∈ w, isBlank c = false := by
  fun_induction wordsFrom word cs with
  | case1 => simp at hw
  | case2 word hne =>
    rw [List.mem_singleton] at hw
    subst hw
    exact ⟨by simpa using hne, fun c hc => h c (by simpa using hc)⟩
  | case3 word c cs hc he ih => exact ih (by simp) hw
  | case4 word c cs hc he ih =>
    rcases List.mem_cons.1 hw with rfl | hw
    · exact ⟨by simpa using he, fun d hd => h d (by simpa using hd)⟩
    · exact ih (by simp) hw
  | case5 word c cs hc ih =>
    refine ih (fun d hd => ?_) hw
    rcases List.mem_cons.1 hd with rfl | hd
    · simpa using hc
    · exact h d hd

/-- A word is not empty and holds no blank. -/
theorem word_of_mem_words {cs w : List Char} (hw : w ∈ words cs) :
    w ≠ [] ∧ ∀ c ∈ w, isBlank c = false :=
  word_of_mem_wordsFrom (by simp) hw

end Carom.Text
