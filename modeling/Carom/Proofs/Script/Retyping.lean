import Carom.Proofs.Display
import Carom.Proofs.Script.Acceptance
import Carom.Proofs.Script.Annotation

/-!
# Numbers typed back into scripts

What is displayed for a finite number can be typed into a script as a speed or as a change of
speed, and the script sets the speed by that number, up to the sign of zero. What is displayed for
nan and the infinities is refused where it stands.

A numeral is one word, since nothing in it is blank (`isBlank_of_written`). A line that begins with
the words for a speed takes the word behind them for a number (`statement_speed`,
`statement_change`), and a script of one such line is that statement (`read_single`).
-/

namespace Carom.Text

/-! ## Numerals are words -/

/-- No digit of any writing system is blank. -/
theorem isBlank_of_digit? {c : Char} {d : Nat} (h : digit? c = some d) : isBlank c = false := by
  -- Each writing system has its ten digits in a row, from its zero on.
  have runs : ∀ start ∈ digitZeros, ∀ k < 10, isBlank (Char.ofNat (start + k)) = false := by
    decide +kernel
  obtain ⟨start, found, -⟩ := Option.map_eq_some_iff.1 h
  have mem := List.mem_of_find?_eq_some found
  have range := List.find?_some found
  simp only [Bool.and_eq_true, decide_eq_true_eq] at range
  have place : start + (c.toNat - start) = c.toNat := by omega
  have digit := runs start mem (c.toNat - start) (by omega)
  rwa [place, Char.ofNat_toNat] at digit

theorem DigitsOf.isBlank {cs : List Char} {ds : List Nat} (h : DigitsOf cs ds) :
    ∀ c ∈ cs, isBlank c = false :=
  ((List.forall₂_and_left cs ds).1 (h.imp fun _ _ digit => ⟨isBlank_of_digit? digit, digit⟩)).1

theorem SignWritten.isBlank {sign : List Char} {negative : Bool} (h : SignWritten sign negative) :
    ∀ c ∈ sign, isBlank c = false := by
  cases h with
  | absent => exact List.forall_mem_nil _
  | plus => exact List.forall_mem_singleton.2 (by decide)
  | minus => exact List.forall_mem_singleton.2 (by decide)

/-- Nothing in a numeral is blank, whatever digits it is written in. -/
theorem isBlank_of_written {cs : List Char} {n : Numeral} (h : Numeral.Written cs n) :
    ∀ c ∈ cs, isBlank c = false := by
  obtain ⟨sign, mantissa, exponent⟩ := h
  simp only [List.forall_mem_append]
  refine ⟨sign.isBlank, ?_, ?_⟩
  · cases mantissa with
    | whole digits _ => exact digits.isBlank
    | pointed digits fraction _ =>
      exact List.forall_mem_append.2 ⟨digits.isBlank,
        List.forall_mem_cons.2 ⟨by decide, fraction.isBlank⟩⟩
  · cases exponent with
    | absent => exact List.forall_mem_nil _
    | marked mark sign digits _ =>
      refine List.forall_mem_cons.2 ⟨?_, List.forall_mem_append.2 ⟨sign.isBlank, digits.isBlank⟩⟩
      rcases mark with rfl | rfl <;> decide

/-- A text that is one word. -/
def IsWord (cs : List Char) : Prop := cs ≠ [] ∧ ∀ c ∈ cs, isBlank c = false

instance (cs : List Char) : Decidable (IsWord cs) :=
  have := List.decidableBAll (fun c => isBlank c = false) cs
  inferInstanceAs (Decidable (_ ∧ _))

/-- So a numeral is a word. -/
theorem isWord_of_read? {cs : List Char} {n : Numeral} (h : Numeral.read? digit? cs = some n) :
    IsWord cs := by
  refine ⟨?_, isBlank_of_written (Numeral.read?_eq_some_iff.1 h)⟩
  rintro rfl
  cases h

section

variable {cs : List Char} (h : IsWord cs)

include h

theorem IsWord.words_eq : words cs = [cs] := by
  have alone := @words_append_word cs [] h.1 h.2 nofun
  rwa [List.append_nil, words_nil] at alone

/-- A word and a space stand in front of the other words. -/
theorem IsWord.words_append_space (rest : List Char) :
    words (cs ++ ' ' :: rest) = cs :: words rest := by
  have ends : ∀ c ∈ (' ' :: rest).head?, isBlank c := by
    rintro c ⟨⟩
    decide
  rw [words_append_word h.1 h.2 ends, words_cons (by decide)]

theorem IsWord.unbroken : Unbroken cs := by
  intro c mem
  rw [← Bool.not_eq_true]
  intro isBreak
  have := isBlank_of_isLineBreak isBreak
  rw [h.2 c mem] at this
  cases this

end

end Carom.Text

namespace Carom.Script

open Text

/-! ## Lines that take a number -/

/-- A beginning of a line that takes the word behind it for a number. -/
structure TakesNumber (front : String) (make : Binary64 → Instruction) : Prop where
  begins : ∃ rest, front.toList = "set ".toList ++ rest
  unbroken : Unbroken front.toList
  reads : ∀ token, IsWord token → token ≠ "relative".toList →
    readSetting (words (front.toList ++ token)) = (readNumber token).map make

/-- A speed is set to the number itself. -/
theorem takesNumber_speed :
    TakesNumber "set speed " fun x => .setSpeed (.literal (.number x)) where
  begins := ⟨"speed ".toList, by decide⟩
  unbroken := by decide +kernel
  reads token word notChange := by
    have line : "set speed ".toList ++ token =
        "set".toList ++ ' ' :: ("speed".toList ++ ' ' :: token) := rfl
    have set : IsWord "set".toList := by decide +kernel
    have speed : IsWord "speed".toList := by decide +kernel
    rw [line, set.words_append_space, speed.words_append_space, word.words_eq]
    simp only [readSetting, beq_self_eq_true, if_true, beq_eq_false_iff_ne.2 notChange,
      Bool.false_eq_true, if_false, List.isEmpty_nil]
    rfl

/-- A change of speed sets the speed to its sum with the number. -/
theorem takesNumber_change : TakesNumber "set speed relative " fun x =>
    .setSpeed (.binary .add (.ball .speed) (.literal (.number x))) where
  begins := ⟨"speed relative ".toList, by decide⟩
  unbroken := by decide +kernel
  reads token word _ := by
    have line : "set speed relative ".toList ++ token =
        "set".toList ++ ' ' :: ("speed".toList ++ ' ' :: ("relative".toList ++ ' ' :: token)) := rfl
    have set : IsWord "set".toList := by decide +kernel
    have speed : IsWord "speed".toList := by decide +kernel
    have relative : IsWord "relative".toList := by decide +kernel
    rw [line, set.words_append_space, speed.words_append_space, relative.words_append_space,
      word.words_eq]
    simp only [readSetting, beq_self_eq_true, if_true]
    rfl

section

variable {front : String} {make : Binary64 → Instruction} (takes : TakesNumber front make)
  {token : List Char} (word : IsWord token)

include takes word

/-- Such a line is what is made of the number behind its beginning, or malformed for want of one. -/
theorem TakesNumber.statement_eq (notChange : token ≠ "relative".toList) (number : Nat) :
    Line.statement ⟨number, front.toList ++ token⟩ = match readNumber token with
      | .ok x => .ok (make x)
      | .error c => .error (.malformed (.at ⟨number, front.toList ++ token⟩ c)) := by
  obtain ⟨rest, begins⟩ := takes.begins
  have isSet : startsWith "set" (front.toList ++ token) := by
    rw [begins, List.append_assoc]
    exact startsWith_iff.2 ⟨rest ++ token, rfl⟩
  have notIf : startsWith "if" (front.toList ++ token) = false := by
    rw [begins]
    rfl
  rw [Line.statement, if_neg (by simp [notIf]), if_pos isSet]
  dsimp only
  rw [takes.reads token word notChange]
  cases readNumber token <;> rfl

/-- A line that ends with a word has no blanks around it. -/
theorem TakesNumber.trimmed_line : Trimmed (front.toList ++ token) := by
  obtain ⟨rest, begins⟩ := takes.begins
  constructor
  · rw [begins]
    rintro c ⟨⟩
    decide
  · intro c mem
    rw [List.getLast?_append_of_ne_nil _ word.1] at mem
    exact word.2 c (List.mem_of_getLast? mem)

end

/-! ## Scripts of one statement -/

/-- A script of one statement is that statement. -/
theorem read_single {source : String} {line : List Char}
    (text : source.toList = "def p".toList ++ '\n' :: line) (ne : line ≠ [])
    (trimmed : Trimmed line) (unbroken : Unbroken line) (goesOn : line ≠ "return".toList) :
    Script.read source =
      (Line.statement ⟨2, line⟩).map fun i => ⟨"p", [i], some source⟩ := by
  have header : significantFrom 1 ["def p".toList, line] =
      ⟨1, "def p".toList⟩ :: significantFrom 2 [line] := rfl
  have statement : significantFrom 2 [line] = [⟨2, line⟩] := by
    rw [significantFrom, trimmed.trim_eq, if_neg (by simpa using ne), significantFrom]
  have found : significant source.toList = [⟨1, "def p".toList⟩, ⟨2, line⟩] := by
    rw [significant, text, lines_append_feed_of_unbroken (by decide), lines_of_unbroken unbroken ne,
      header, statement]
  have inner : Line.isReturn ⟨2, line⟩ = false := by simpa [Line.isReturn] using goesOn
  have block : ([⟨2, line⟩] : List Line).takeWhile (fun l => !l.isReturn) = [⟨2, line⟩] := by
    rw [List.takeWhile_cons_of_pos (by simp [inner]), List.takeWhile_nil]
  have named : Line.header ⟨1, "def p".toList⟩ = .ok ['p'] := rfl
  rw [Script.read, found]
  dsimp only
  rw [named, block]
  cases read : Line.statement ⟨2, line⟩ <;>
    simp [read, bind, Except.bind, pure, Except.pure, Except.map]

/-! ## What is displayed for a number -/

/-- What is displayed for a number is one word, and not the one that announces a change. -/
theorem isWord_display (n : Binary64) :
    IsWord (Value.numberText n).toList ∧ (Value.numberText n).toList ≠ "relative".toList := by
  cases finite : n.isFinite with
  | true =>
    obtain ⟨m, read, -⟩ := Value.exists_read?_numberText finite
    refine ⟨isWord_of_read? read, fun isChange => ?_⟩
    rw [isChange, read?_relative] at read
    cases read
  | false =>
    cases n with
    | nan => exact ⟨by decide +kernel, by decide⟩
    | infinite negative => cases negative <;> exact ⟨by decide +kernel, by decide⟩
    | finite => cases finite

/-- A script whose only line takes what is displayed for a number. -/
def typed (front : String) (n : Binary64) : String := "def p\n" ++ (front ++ (Value.number n).text)

/-- The line of that script. -/
def typedLine (front : String) (n : Binary64) : Line :=
  ⟨2, front.toList ++ (Value.number n).text.toList⟩

/-- The script is accepted, and makes its only instruction of an equal number. -/
def Accepted (front : String) (make : Binary64 → Instruction) (n : Binary64) : Prop :=
  ∃ x, x == n ∧ Script.read (typed front n) = .ok ⟨"p", [make x], some (typed front n)⟩

/-- The script is malformed, for want of a number. -/
def Refused (front : String) (n : Binary64) : Prop :=
  Script.read (typed front n) = .error (.malformed
    (.at (typedLine front n) (.badNumber (Value.number n).text.toList)))

section

variable {front : String} {make : Binary64 → Instruction} (takes : TakesNumber front make)
  {n : Binary64}

include takes

/-- A script of such a line is what the line is read as. -/
theorem TakesNumber.read_typed : Script.read (typed front n) =
    ((typedLine front n).statement).map fun i => ⟨"p", [i], some (typed front n)⟩ := by
  obtain ⟨word, -⟩ := isWord_display n
  have text : (typed front n).toList =
      "def p".toList ++ '\n' :: (typedLine front n).text := by
    rw [typed, typedLine, String.toList_append, String.toList_append]
    rfl
  have ne : (typedLine front n).text ≠ [] := fun empty => word.1 (List.append_eq_nil_iff.1 empty).2
  refine read_single text ne (takes.trimmed_line word) (takes.unbroken.append word.unbroken) ?_
  obtain ⟨rest, begins⟩ := takes.begins
  rw [begins]
  exact fun isReturn => absurd (List.cons.inj isReturn).1 (by decide)

/-- What is displayed for a finite number is a numeral, and an equal number is read from it. -/
theorem TakesNumber.accepted (finite : n.isFinite) : Accepted front make n := by
  obtain ⟨word, notChange⟩ := isWord_display n
  obtain ⟨m, read, equal⟩ := Value.exists_read?_numberText finite
  have statement := takes.statement_eq word notChange 2
  rw [readNumber, read] at statement
  refine ⟨m.toNumber, equal, ?_⟩
  rw [takes.read_typed, typedLine, Value.text, statement]
  rfl

/-- What is displayed for any other number is no numeral, so it is quoted as a bad one. -/
theorem TakesNumber.refused (notFinite : n.isFinite = false) : Refused front n := by
  obtain ⟨word, notChange⟩ := isWord_display n
  have statement := takes.statement_eq word notChange 2
  rw [readNumber, Value.read?_numberText_eq_none notFinite] at statement
  rw [Refused, takes.read_typed, typedLine, Value.text, statement]
  rfl

end

/-- What is displayed for a finite number is taken for an equal number, as a speed and as a change
    of speed, and what is displayed for any other one is refused. So finite numbers look the same
    iff they are equal. -/
theorem typedBack :
    (∀ n : Binary64, n.isFinite →
      Accepted "set speed " (fun x => .setSpeed (.literal (.number x))) n ∧
      Accepted "set speed relative "
        (fun x => .setSpeed (.binary .add (.ball .speed) (.literal (.number x)))) n) ∧
    (∀ n : Binary64, n.isFinite = false →
      Refused "set speed " n ∧ Refused "set speed relative " n) ∧
    ∀ m n : Binary64, m.isFinite → n.isFinite →
      ((Value.number m).text = (Value.number n).text ↔ m == n) :=
  ⟨fun _ finite => ⟨takesNumber_speed.accepted finite, takesNumber_change.accepted finite⟩,
    fun _ notFinite => ⟨takesNumber_speed.refused notFinite, takesNumber_change.refused notFinite⟩,
    fun _ _ => Value.numberText_eq_iff⟩

/-- A number with a fraction, negative infinity, and the two zeros. -/
theorem typedBack_two_zeros :
    let tenth := Binary64.ofDecimal false 1 (-1)
    let minusZero := Binary64.finite true 0 Binary64.representable_zero
    (Accepted "set speed " (fun x => .setSpeed (.literal (.number x))) tenth ∧
      Accepted "set speed relative "
        (fun x => .setSpeed (.binary .add (.ball .speed) (.literal (.number x)))) tenth) ∧
    (Refused "set speed " (.infinite true) ∧ Refused "set speed relative " (.infinite true)) ∧
    (Value.number minusZero).text = (Value.number Binary64.zero).text := by
  intro tenth minusZero
  have finite : tenth.isFinite := by decide +kernel
  exact ⟨typedBack.1 tenth finite, typedBack.2.1 (.infinite true) rfl,
    (typedBack.2.2 minusZero Binary64.zero rfl rfl).2 (by decide +kernel)⟩

end Carom.Script
