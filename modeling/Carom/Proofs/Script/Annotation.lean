import Carom.Proofs.Script.FirstFault
import Carom.Proofs.Text.Digit
import Carom.Script.Editor

/-!
# Texts below a note

A malformed text is kept below a note of three lines, the first of which holds the message about
what is wrong. A message quotes the user: the whole line, or a word of it. None of that can hold a
line break, since lines have none and words have no blank, so the message stays on its line
(`unbroken_message_of_readAll`). The note then takes as many lines of the stored text as it should,
and the lines of the user come behind it as they were.

* `token_mem_of_fault?`: the word that a message quotes is a word of the line that is wrong.
* `recovers_annotate`: a text below a note without a line break in its message can be recovered.
* `recovers_of_kept`: so can every text that is kept when it is compiled.
-/

namespace Carom.Text

/-! ## Texts without a line break -/

instance (cs : List Char) : Decidable (Unbroken cs) :=
  List.decidableBAll (fun c => isLineBreak c = false) cs

/-- No word breaks, since line breaks are blank. -/
theorem unbroken_of_mem_words {cs w : List Char} (h : w ∈ words cs) : Unbroken w := by
  intro c mem
  have noBlank := (word_of_mem_words h).2 c mem
  rw [← Bool.not_eq_true]
  intro isBreak
  rw [isBlank_of_isLineBreak isBreak] at noBlank
  cases noBlank

/-- A line without a break has none when it is trimmed. -/
theorem Unbroken.trim {cs : List Char} (h : Unbroken cs) : Unbroken (trim isBlank cs) := by
  obtain ⟨gap, pad, -, -, -, eq⟩ := exists_trim cs
  intro c mem
  refine h c ?_
  rw [eq]
  exact List.mem_append_right gap (List.mem_append_left pad mem)

/-- The number of a line does not break. -/
theorem unbroken_toString (n : Nat) : Unbroken (toString n).toList := by
  intro c mem
  have digits : (toString n).toList = Nat.toDigits 10 n := Nat.toList_repr
  have isDigit : c.isDigit := plain_toDigits n c (digits ▸ mem)
  have range := Char.isDigit_iff_toNat.1 isDigit
  have low : 48 ≤ c.toNat := range.1
  have high : c.toNat ≤ 57 := range.2
  simp only [isLineBreak, Bool.or_eq_false_iff, Bool.and_eq_false_iff, decide_eq_false_iff_not,
    beq_eq_false_iff_ne]
  omega

/-- What is left of a text behind so many line feeds; nothing if there are not so many. -/
def afterFeeds : Nat → List Char → List Char
  | 0, cs => cs
  | _ + 1, [] => []
  | n + 1, c :: cs => if c = '\n' then afterFeeds n cs else afterFeeds (n + 1) cs

/-- What is behind one more feed is behind a line without a break. -/
theorem afterFeeds_append_feed {l : List Char} (h : Unbroken l) (n : Nat) (rest : List Char) :
    afterFeeds (n + 1) (l ++ '\n' :: rest) = afterFeeds n rest := by
  induction l with
  | nil => simp [afterFeeds]
  | cons c l ih =>
    have plain : c ≠ '\n' := by
      rintro rfl
      exact absurd (h '\n' List.mem_cons_self) (by decide)
    rw [List.cons_append, afterFeeds, if_neg plain, ih fun d hd => h d (List.mem_cons_of_mem c hd)]

/-- A feed behind a line without a break ends that line and no other. -/
theorem lines_append_feed_of_unbroken {l : List Char} (h : Unbroken l) (rest : List Char) :
    lines (l ++ '\n' :: rest) = l :: lines rest :=
  lines_append_break h (by decide) fun isReturn => absurd isReturn (by decide)

end Carom.Text

namespace Carom.Script

open Text

/-! ## Messages -/

/-- The word that the message of a cause quotes, if it does not quote the whole line. -/
def Cause.token? : Cause → Option (List Char)
  | badCount token => some token
  | unknownDirection token => some token
  | unknownProperty token => some token
  | badNumber token => some token
  | _ => none

/-- A phrase without a line break on either side of what is quoted. -/
def Quotes (message : String) (quoted : List Char) : Prop :=
  ∃ before after : String, Unbroken before.toList ∧ Unbroken after.toList ∧
    message = before ++ String.ofList quoted ++ after

/-- A message quotes a word, or the line. -/
theorem Cause.quotes_message (line : List Char) (c : Cause) :
    Quotes (c.message line) (c.token?.getD line) := by
  cases c with
  | noHeader =>
    exact ⟨"Expected 'def function_name', found: ", "", by decide +kernel, by decide +kernel,
      String.append_empty.symm⟩
  | badCondition =>
    exact ⟨"Invalid if statement: ", ". Expected: if <color> hits <target> <count> times",
      by decide +kernel, by decide +kernel, rfl⟩
  | badCount token => exact ⟨"Invalid hit count '", "'", by decide +kernel, by decide +kernel, rfl⟩
  | incompleteSetting =>
    exact ⟨"Incomplete set statement: ", "", by decide +kernel, by decide +kernel,
      String.append_empty.symm⟩
  | badSpeedChange =>
    exact ⟨"Invalid set speed relative statement: ",
      ". Expected: set speed relative <+/-number>", by decide +kernel, by decide +kernel, rfl⟩
  | badSpeed =>
    exact ⟨"Invalid set speed statement: ", "", by decide +kernel, by decide +kernel,
      String.append_empty.symm⟩
  | badDirection =>
    exact ⟨"Invalid set direction statement: ", "", by decide +kernel, by decide +kernel,
      String.append_empty.symm⟩
  | unknownDirection token =>
    exact ⟨"Invalid direction '", "'. Valid directions are: " ++
      ", ".intercalate (Direction.all.map Direction.word), by decide +kernel, by decide +kernel,
      String.append_assoc⟩
  | unknownProperty token =>
    exact ⟨"Unknown property '", "' in set statement", by decide +kernel, by decide +kernel, rfl⟩
  | badNumber token => exact ⟨"Invalid number '", "'", by decide +kernel, by decide +kernel, rfl⟩
  | unknownStatement =>
    exact ⟨"Failed to parse line: ", "", by decide +kernel, by decide +kernel,
      String.append_empty.symm⟩

/-! ## The words that messages quote -/

/-- The cause of a bad number quotes the word that was to be one. -/
theorem token_eq_of_readNumber {token t : List Char} {f : Binary64 → Instruction} {c : Cause}
    (h : (readNumber token).map f = .error c) (mem : t ∈ c.token?) : t = token := by
  rw [readNumber] at h
  split at h
  · cases h
  · cases h
    exact (Option.mem_some.1 mem).symm

/-- A cause quotes a word of the condition, if any. -/
theorem token_mem_of_readCondition {tokens : List (List Char)} {t : List Char} {c : Cause}
    (h : readCondition tokens = .error c) (mem : t ∈ c.token?) : t ∈ tokens := by
  rw [readCondition.eq_def] at h
  split at h
  · split at h
    · split at h
      · cases h
      · cases h
        cases mem
        simp
    · cases h
      cases mem
  · cases h
    cases mem

/-- And a word of the setting. -/
theorem token_mem_of_readSetting {tokens : List (List Char)} {t : List Char} {c : Cause}
    (h : readSetting tokens = .error c) (mem : t ∈ c.token?) : t ∈ tokens := by
  rw [readSetting.eq_def] at h
  split at h
  · split at h
    · -- A change of speed, or a speed.
      split at h
      · split at h
        · simp [token_eq_of_readNumber h mem]
        · cases h
          cases mem
      · split at h
        · simp [token_eq_of_readNumber h mem]
        · cases h
          cases mem
    · split at h
      · -- A direction.
        split at h
        · split at h
          · cases h
          · cases h
            cases mem
            simp
        · cases h
          cases mem
      · cases h
        cases mem
        simp
  · cases h
    cases mem

/-- The word that a message quotes is a word of the line that is wrong. -/
theorem token_mem_of_fault? {inside : Bool} {l m : Line} {c : Cause} {t : List Char}
    (h : l.fault? inside = some (.malformed (.at m c))) (mem : t ∈ c.token?) :
    t ∈ words l.text := by
  unfold Line.fault? at h
  split at h
  · cases h
  split at h
  · rw [fault?_eq_some_iff, Line.statement] at h
    split at h
    · rename_i isIf
      rw [words_if isIf]
      split at h
      · rename_i digits _
        cases count : readCount digits with
        | ok n =>
          rw [count] at h
          cases h
        -- An oversized count is another error, which quotes nothing.
        | error oversized =>
          rw [count] at h
          cases h
          exact absurd rfl ((readCount_eq_error count).2 _)
      · rename_i read
        cases h
        exact List.mem_cons_of_mem _ (token_mem_of_readCondition read mem)
    · split at h
      · split at h
        · cases h
        · rename_i read
          cases h
          exact token_mem_of_readSetting read mem
      · cases h
        cases mem
  · cases h
    cases mem

/-- No line break gets into the message about a text. -/
theorem unbroken_message_of_readAll {source : String} {e : SyntaxError}
    (h : readAll source = .error (.malformed e)) : Unbroken e.message.toList := by
  have fault := fault?_readAll source
  rw [h, fault?_error] at fault
  split at fault
  · cases fault
    decide +kernel
  · obtain ⟨before, l, after, eq, -, wrong⟩ := firstFault?_eq_some_iff.1 fault.symm
    obtain ⟨c, rfl⟩ := exists_cause_of_fault? wrong
    -- The line has come of a line of the text.
    have unbroken : Unbroken l.text := by
      have mem : l ∈ significant source.toList := by
        rw [eq]
        exact List.mem_append_right before List.mem_cons_self
      obtain ⟨⟨-, raw, found, text⟩, -⟩ := mem_significantFrom_iff.1 mem
      rw [← text]
      exact (unbroken_of_mem_lines (List.mem_of_getElem? found)).trim
    have quoted : Unbroken (c.token?.getD l.text) := by
      cases token : c.token? with
      | none => exact unbroken
      | some t => exact unbroken_of_mem_words (token_mem_of_fault? wrong token)
    obtain ⟨front, back, unbrokenFront, unbrokenBack, message⟩ := c.quotes_message l.text
    rw [SyntaxError.message, message]
    simp only [String.toList_append, String.toList_ofList]
    have place : Unbroken " (line ".toList ∧ Unbroken ")".toList := by decide +kernel
    exact ((((unbrokenFront.append quoted).append unbrokenBack).append place.1).append
      (unbroken_toString l.number)).append place.2

/-! ## What is stored -/

/-- The line of a note above the message. -/
def errorLine (message : String) : String := "// SYNTAX ERROR: " ++ message

/-- The line of a note below the message. -/
def hintLine : String := "// Fix the error above to make this code functional"

/-- A text that is stored below a note, and that can be told apart from it. -/
structure Recovers (source message stored : String) : Prop where
  /-- The message is on one line. -/
  unbroken : Unbroken message.toList
  /-- The note has three lines, and the lines of the text are behind it as they were. -/
  lines : lines stored.toList =
    (errorLine message).toList :: hintLine.toList :: [] :: lines source.toList
  /-- The text is what is left behind three line feeds. -/
  rest : afterFeeds 3 stored.toList = source.toList

/-- A note is three lines with a line feed behind each of them. -/
theorem toList_annotate (source message : String) : (annotate source message).toList =
    (errorLine message).toList ++ '\n' ::
      (hintLine.toList ++ '\n' :: ([] ++ '\n' :: source.toList)) := by
  have hint : "\n// Fix the error above to make this code functional\n\n" =
      "\n" ++ hintLine ++ "\n\n" := rfl
  have note : annotate source message =
      errorLine message ++ ("\n" ++ hintLine ++ "\n\n") ++ source :=
    congrArg (errorLine message ++ · ++ source) hint
  simp [note]

theorem toList_errorLine (message : String) :
    (errorLine message).toList = "// SYNTAX ERROR: ".toList ++ message.toList :=
  String.toList_append

theorem unbroken_hintLine : Unbroken hintLine.toList := by decide +kernel

theorem unbroken_nil : Unbroken [] := nofun

section

variable (source : String) {message : String} (h : Unbroken message.toList)

include h

theorem unbroken_errorLine : Unbroken (errorLine message).toList := by
  rw [toList_errorLine]
  exact .append (by decide +kernel) h

/-- The lines of a text below a note are those of the note, and its own. -/
theorem lines_annotate : lines (annotate source message).toList =
    (errorLine message).toList :: hintLine.toList :: [] :: lines source.toList := by
  rw [toList_annotate, lines_append_feed_of_unbroken (unbroken_errorLine h),
    lines_append_feed_of_unbroken unbroken_hintLine, lines_append_feed_of_unbroken unbroken_nil]

/-- The first three feeds of a text below a note are those of the note. -/
theorem afterFeeds_annotate (n : Nat) :
    afterFeeds (n + 3) (annotate source message).toList = afterFeeds n source.toList := by
  rw [toList_annotate, afterFeeds_append_feed (unbroken_errorLine h),
    afterFeeds_append_feed unbroken_hintLine, afterFeeds_append_feed unbroken_nil]

/-- So a note about a message without a break can be taken off again. -/
theorem recovers_annotate : Recovers source message (annotate source message) :=
  ⟨h, lines_annotate source h, by rw [afterFeeds_annotate source h 0, afterFeeds]⟩

end

/-- A text that is kept when it is compiled is malformed, and what is stored recovers it. -/
theorem recovers_of_kept {source : String} {p : Program} {e : SyntaxError}
    (h : compile source = .ok (.kept p e)) : readAll source = .error (.malformed e) ∧
      ∃ stored, p.sourceText = some stored ∧ Recovers source e.message stored := by
  rw [compile] at h
  split at h
  · cases h
  · rename_i malformed
    cases h
    exact ⟨malformed, _, rfl, recovers_annotate source (unbroken_message_of_readAll malformed)⟩
  · cases h

/-- A text that begins with a line feed and has other breaks, one of them in front of the word that
    the message quotes. -/
theorem recovers_of_kept_odd_breaks :
    let source := "\n\u2028def p\r\n\x0bset speed\tfast\x1e\r"
    ∃ p e stored, compile source = .ok (.kept p e) ∧ p.sourceText = some stored ∧
      e.message = "Invalid number 'fast' (line 5)" ∧ Recovers source e.message stored := by
  intro source
  let e : SyntaxError := .at ⟨5, "set speed\tfast".toList⟩ (.badNumber "fast".toList)
  have malformed : fault? (readAll source) = some (.malformed e) := by decide +kernel
  rw [fault?_eq_some_iff] at malformed
  have kept : compile source =
      .ok (.kept ⟨guessName source, [], some (annotate source e.message)⟩ e) := by
    rw [compile, malformed]
  obtain ⟨-, stored, found, recovers⟩ := recovers_of_kept kept
  exact ⟨_, e, stored, kept, found, by decide +kernel, recovers⟩

end Carom.Script
