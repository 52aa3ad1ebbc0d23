import Carom.Proofs.Script.Fault
import Carom.Proofs.Script.Layout
import Carom.Proofs.Text.Numeral

/-!
# Which texts are scripts

The grammar of scripts as relations: what a line asks for (`Asks`), what it names (`Names`), and
what the lines of a text come to (`Composes`). A text is read as a program iff the lines that
it lays out come to that program (`read_iff_composes`). Lines behind the one that ends the
program, and the layout of those before it, are of no account.
-/

namespace Carom.Script

open Text

/-! ## Lines -/

/-- What the text of a statement asks for. -/
inductive Asks : List Char → Instruction → Prop
  | condition {rest color target count : List Char} {digits : List Nat} {hits : Binary64} :
      Separated rest [color, "hits".toList, target, count, "times".toList] →
      CountWritten count digits → digits.length ≤ maxCountDigits →
      Binary64.ofInt? (ofDigits digits) = some hits →
      Asks ("if ".toList ++ rest)
        (.ifThen (.binary .ge (.ball .hitCount) (.literal (.number hits))) [.bounce])
  | speed {rest value : List Char} {n : Numeral} :
      Separated ("set ".toList ++ rest) ["set".toList, "speed".toList, value] →
      Numeral.Written value n →
      Asks ("set ".toList ++ rest) (.setSpeed (.literal (.number n.toNumber)))
  | change {rest value : List Char} {n : Numeral} :
      Separated ("set ".toList ++ rest)
        ["set".toList, "speed".toList, "relative".toList, value] →
      Numeral.Written value n → Asks ("set ".toList ++ rest)
        (.setSpeed (.binary .add (.ball .speed) (.literal (.number n.toNumber))))
  | direction {rest : List Char} {d : Direction} :
      Separated ("set ".toList ++ rest) ["set".toList, "direction".toList, d.word.toList] →
      Asks ("set ".toList ++ rest) (.setDirection (.literal (.direction d)))

/-- The name in the first line of a program. -/
inductive Names : List Char → List Char → Prop
  | intro {gap name : List Char} : AllBlank gap → name ≠ [] → Trimmed name →
      Names ("def ".toList ++ (gap ++ name)) name

/-- A text that holds no more of a program: it is over, or goes on with its last line. -/
def Ends (texts : List (List Char)) : Prop := ∀ text ∈ texts.head?, text = "return".toList

/-- The lines of a text that come to a program of that name with those instructions. -/
inductive Composes : List (List Char) → List Char → List Instruction → Prop
  | intro {header name : List Char} {statements rest : List (List Char)}
      {block : List Instruction} : Names header name → List.Forall₂ Asks statements block →
      Ends rest → Composes (header :: (statements ++ rest)) name block

/-- A keyword and a space in front of a line. -/
theorem startsWith_iff {word : String} {line : List Char} :
    startsWith word line ↔ ∃ rest, line = (word.toList ++ [' ']) ++ rest := by
  rw [startsWith, List.isPrefixOf_iff_prefix]
  exact exists_congr fun rest => eq_comm

/-- What follows the keyword is the rest of the line. -/
theorem after_append (word : String) (rest : List Char) :
    after word ((word.toList ++ [' ']) ++ rest) = rest := by
  simp [after, ← String.length_toList]

/-- The word of a direction is spelled in one way. -/
theorem ofWord?_eq_some_iff {w : String} {d : Direction} :
    Direction.ofWord? w = some d ↔ w = d.word := by
  constructor
  · intro h
    have same := List.find?_some (p := fun e : Direction => e.word == w) h
    exact (beq_iff_eq.1 same).symm
  · rintro rfl
    exact d.ofWord?_word

/-- A keyword in front of a line is its first word, so no other keyword is. -/
theorem startsWith_of_words {line first : List Char} {more : List (List Char)}
    (h : words line = first :: more) (either : startsWith "if" line ∨ startsWith "set" line) :
    first = "if".toList ∧ startsWith "if" line ∨ first = "set".toList ∧ startsWith "set" line := by
  refine either.imp (fun isIf => ⟨?_, isIf⟩) fun isSet => ⟨?_, isSet⟩
  · exact (List.cons.inj (h.symm.trans (words_if isIf))).1
  · exact (List.cons.inj (h.symm.trans (words_set isSet))).1

/-- A line that is read asks for what it is read as. -/
theorem asks_of_statement {l : Line} {i : Instruction} (h : l.statement = .ok i) :
    Asks l.text i := by
  obtain ⟨keyword, spelled⟩ := statement_eq_ok_iff.1 h
  generalize spelling : words l.text = ws at spelled
  have begins {first : List Char} {more : List (List Char)} (h : ws = first :: more) :=
    startsWith_of_words (spelling.trans h) keyword
  cases spelled with
  | condition read short fits =>
    -- The first word is the keyword that the line begins with, so the other keyword is out.
    obtain ⟨-, isIf⟩ := (begins rfl).resolve_right (by simp)
    obtain ⟨rest, eq⟩ := startsWith_iff.1 isIf
    rw [words_if isIf, eq, after_append] at spelling
    rw [eq]
    exact .condition (words_eq_iff.1 (List.cons.inj spelling).2)
      (countDigits?_eq_some_iff.1 read) short fits
  | speed read =>
    obtain ⟨-, isSet⟩ := (begins rfl).resolve_left (by simp)
    obtain ⟨rest, eq⟩ := startsWith_iff.1 isSet
    rw [eq] at spelling ⊢
    exact .speed (words_eq_iff.1 spelling) (Numeral.read?_eq_some_iff.1 read)
  | change read =>
    obtain ⟨-, isSet⟩ := (begins rfl).resolve_left (by simp)
    obtain ⟨rest, eq⟩ := startsWith_iff.1 isSet
    rw [eq] at spelling ⊢
    exact .change (words_eq_iff.1 spelling) (Numeral.read?_eq_some_iff.1 read)
  | @direction word d read =>
    obtain ⟨-, isSet⟩ := (begins rfl).resolve_left (by simp)
    obtain ⟨rest, eq⟩ := startsWith_iff.1 isSet
    have spelled : word = d.word.toList := by
      rw [← ofWord?_eq_some_iff.1 read, String.toList_ofList]
    rw [eq, spelled] at spelling
    rw [eq]
    exact .direction (words_eq_iff.1 spelling)

/-- A line that asks for something is read as that. -/
theorem statement_of_asks {l : Line} {i : Instruction} (asks : Asks l.text i) :
    l.statement = .ok i := by
  rw [statement_eq_ok_iff]
  generalize l.text = text at asks
  cases asks with
  | @condition rest color target count digits hits separated written short fits =>
    have isIf : startsWith "if" ("if ".toList ++ rest) := startsWith_iff.2 ⟨rest, rfl⟩
    refine ⟨.inl isIf, ?_⟩
    rw [words_if isIf, show after "if" ("if ".toList ++ rest) = rest from after_append "if" rest,
      words_eq_iff.2 separated]
    exact .condition (countDigits?_eq_some_iff.2 written) short fits
  | @speed rest value n separated written =>
    refine ⟨.inr (startsWith_iff.2 ⟨rest, rfl⟩), ?_⟩
    rw [words_eq_iff.2 separated]
    exact .speed (Numeral.read?_eq_some_iff.2 written)
  | @change rest value n separated written =>
    refine ⟨.inr (startsWith_iff.2 ⟨rest, rfl⟩), ?_⟩
    rw [words_eq_iff.2 separated]
    exact .change (Numeral.read?_eq_some_iff.2 written)
  | @direction rest d separated =>
    refine ⟨.inr (startsWith_iff.2 ⟨rest, rfl⟩), ?_⟩
    rw [words_eq_iff.2 separated]
    exact .direction (ofWord?_eq_some_iff.2 (String.ofList_toList ..))

/-- A line is read as what it asks for. -/
theorem statement_iff_asks {l : Line} {i : Instruction} : l.statement = .ok i ↔ Asks l.text i :=
  ⟨asks_of_statement, statement_of_asks⟩

/-- The line that ends a program asks for nothing. -/
theorem Asks.ne_return {text : List Char} {i : Instruction} (h : Asks text i) :
    text ≠ "return".toList := by
  rintro rfl
  generalize ret : "return".toList = text at h
  cases h <;> exact absurd ret (by simp)

/-- So no statement of a program ends it. -/
theorem ne_return_of_forall₂_asks {texts : List (List Char)} {block : List Instruction}
    (h : List.Forall₂ Asks texts block) : ∀ text ∈ texts, text ≠ "return".toList :=
  (List.forall₂_and_left texts block).1 (h.imp fun _ _ asks => ⟨asks.ne_return, asks⟩) |>.1

/-- A line that begins a program has a name: it does not end in the space behind its keyword. -/
theorem name_ne_nil {text : List Char} (h : Trimmed text) (begins : startsWith "def" text) :
    trim isBlank (after "def" text) ≠ [] := by
  obtain ⟨rest, rfl⟩ := startsWith_iff.1 begins
  rw [after_append, Ne, trim_eq_nil_iff]
  intro blank
  have space : AllBlank ([' '] ++ rest) := allBlank_singleton (by decide) |>.append blank
  rw [List.append_assoc] at h
  exact absurd (h.eq_nil_of_append space) (by simp)

/-- The name in the first line of a program is what stands behind its keyword. -/
theorem names_iff {text name : List Char} (h : Trimmed text) :
    Names text name ↔ startsWith "def" text ∧ trim isBlank (after "def" text) = name := by
  constructor
  · rintro ⟨hgap, -, trimmed⟩
    refine ⟨startsWith_iff.2 ⟨_, rfl⟩, ?_⟩
    have inner := trim_append hgap trimmed allBlank_nil
    rw [List.append_nil] at inner
    exact (congrArg (trim isBlank) (after_append "def" _)).trans inner
  · rintro ⟨begins, rfl⟩
    have ne := name_ne_nil h begins
    obtain ⟨rest, rfl⟩ := startsWith_iff.1 begins
    rw [after_append] at ne ⊢
    obtain ⟨gap, pad, hgap, hpad, trimmed, eq⟩ := exists_trim rest
    -- The line ends in no blank, so it does not end with the space behind its keyword either.
    have noPad : pad = [] := by
      rw [eq, ← List.append_assoc, ← List.append_assoc] at h
      exact h.eq_nil_of_append hpad
    rw [noPad, List.append_nil] at eq
    have named : Names ("def ".toList ++ (gap ++ trim isBlank rest)) (trim isBlank rest) :=
      .intro hgap ne trimmed
    rwa [← eq] at named

/-! ## Texts -/

/-- A header and statements that can be read make a program. -/
theorem assemble_eq_ok_iff {header : Line} {ls : List Line} {text : String} {p : Program} :
    (do
      let name ← header.header
      let instructions ← ls.mapM Line.statement
      pure ⟨String.ofList name, instructions, some text⟩ : Except ReadError Program) = .ok p ↔
    header.isHeader ∧ List.Forall₂ (fun l i => Line.statement l = .ok i) ls p.instructions ∧
      p.name = String.ofList header.name ∧ p.sourceText = some text := by
  rw [← mapM_eq_ok_iff, Line.header]
  cases isHeader : header.isHeader with
  | false => simp [Line.error, bind, Except.bind]
  | true =>
    cases statements : ls.mapM Line.statement with
    | error e => simp [bind, Except.bind]
    | ok block =>
      -- The name and the statements are read, so the program is made of them.
      obtain ⟨name, instructions, sourceText⟩ := p
      simp only [bind, Except.bind, pure, Except.pure, if_true, Except.ok.injEq, Program.mk.injEq,
        true_and]
      constructor
      · rintro ⟨rfl, rfl, rfl⟩
        exact ⟨rfl, rfl, rfl⟩
      · rintro ⟨rfl, rfl, rfl⟩
        exact ⟨rfl, rfl, rfl⟩

/-- The lines of a program that is read. -/
theorem read_eq_ok_iff {source : String} {p : Program} : Script.read source = .ok p ↔
    ∃ first rest, significant source.toList = first :: rest ∧ first.isHeader ∧
      List.Forall₂ (fun l i => Line.statement l = .ok i) (rest.takeWhile fun l => !l.isReturn)
        p.instructions ∧
      p.name = String.ofList first.name ∧ p.sourceText = some source := by
  rw [Script.read]
  split
  · rename_i none
    simp [none]
  · rename_i first rest lines
    rw [assemble_eq_ok_iff]
    simp [lines]

/-- The lines that count are trimmed. -/
theorem trimmed_of_mem_significant {l : Line} {source : List Char} (h : l ∈ significant source) :
    Trimmed l.text := by
  have mem : l.text ∈ significantTexts source :=
    map_text_significant source ▸ List.mem_map_of_mem h
  obtain ⟨line, -, eq⟩ := List.mem_map.1 (List.mem_of_mem_filter mem)
  exact eq ▸ trimmed_trim line

/-- A line of a text that begins a program has a name. -/
theorem Line.name_ne_nil {l : Line} {source : List Char} (h : l ∈ significant source)
    (begins : l.isHeader) : l.name ≠ [] :=
  Script.name_ne_nil (trimmed_of_mem_significant h) begins

/-- Lines are read one by one as what their texts ask for. -/
theorem forall₂_asks_iff {ls : List Line} {block : List Instruction} :
    List.Forall₂ (fun l i => Line.statement l = .ok i) ls block ↔
      List.Forall₂ Asks (ls.map Line.text) block := by
  simp only [statement_iff_asks, List.forall₂_map_left_iff]

/-- The statements of a program are the lines up to the one that ends it. -/
theorem takeWhile_of_asks {before after : List Line} {block : List Instruction}
    (asked : List.Forall₂ Asks (before.map Line.text) block) (ends : Ends (after.map Line.text)) :
    (before ++ after).takeWhile (fun l => !l.isReturn) = before := by
  have inner : ∀ l ∈ before, (!l.isReturn) = true := by
    intro l mem
    simpa [Line.isReturn] using ne_return_of_forall₂_asks asked l.text (List.mem_map_of_mem mem)
  rw [List.takeWhile_append_of_pos inner]
  cases after with
  | nil => simp
  | cons l after =>
    have isReturn : l.text = "return".toList := ends _ rfl
    simp [Line.isReturn, isReturn]

/-- The lines of a text that is read come to the program that it is read as. -/
theorem composes_of_read {source : String} {p : Program} (h : Script.read source = .ok p) :
    Composes (significantTexts source.toList) p.name.toList p.instructions := by
  rw [← map_text_significant]
  obtain ⟨first, rest, lines, isHeader, statements, named, -⟩ := read_eq_ok_iff.1 h
  have trimmed : Trimmed first.text := trimmed_of_mem_significant (lines ▸ List.mem_cons_self)
  have header : Names first.text p.name.toList := by
    rw [names_iff trimmed, named, String.toList_ofList]
    exact ⟨isHeader, rfl⟩
  have ends : Ends ((rest.dropWhile fun l => !l.isReturn).map Line.text) := by
    intro text mem
    rw [List.head?_map] at mem
    obtain ⟨l, found, rfl⟩ := Option.map_eq_some_iff.1 mem
    have := List.head?_dropWhile_not (fun l => !Line.isReturn l) rest
    rw [found] at this
    simpa [Line.isReturn] using this
  rw [lines, List.map_cons, ← List.takeWhile_append_dropWhile (p := fun l => !Line.isReturn l)
    (l := rest), List.map_append]
  exact .intro header (forall₂_asks_iff.1 statements) ends

/-- A text whose lines come to a program is read as that program. -/
theorem read_of_composes {source : String} {p : Program}
    (composed : Composes (significantTexts source.toList) p.name.toList p.instructions)
    (kept : p.sourceText = some source) : Script.read source = .ok p := by
  rw [← map_text_significant] at composed
  generalize found : (significant source.toList).map Line.text = texts at composed
  obtain ⟨named, asked, ends⟩ := composed
  obtain ⟨first, others, lines, rfl, split⟩ := List.map_eq_cons_iff.1 found
  obtain ⟨before, after, rfl, rfl, rfl⟩ := List.map_eq_append_iff.1 split
  have trimmed : Trimmed first.text := trimmed_of_mem_significant (lines ▸ List.mem_cons_self)
  obtain ⟨isHeader, name⟩ := (names_iff trimmed).1 named
  have statements : (before ++ after).takeWhile (fun l => !l.isReturn) = before :=
    takeWhile_of_asks asked ends
  refine read_eq_ok_iff.2 ⟨first, before ++ after, lines, isHeader, ?_, ?_, kept⟩
  · rw [statements]
    exact forall₂_asks_iff.2 asked
  · rw [← String.ofList_toList (s := p.name), ← name]
    rfl

/-- A program that is read keeps its text. -/
theorem sourceText_of_read {source : String} {p : Program} (h : Script.read source = .ok p) :
    p.sourceText = some source := by
  obtain ⟨_, _, _, _, _, _, kept⟩ := read_eq_ok_iff.1 h
  exact kept

/-- A text is read as the program that its lines come to. -/
theorem read_iff_composes_significantTexts {source : String} {p : Program} :
    Script.read source = .ok p ↔
      Composes (significantTexts source.toList) p.name.toList p.instructions ∧
        p.sourceText = some source :=
  ⟨fun h => ⟨composes_of_read h, sourceText_of_read h⟩, fun h => read_of_composes h.1 h.2⟩

/-- Nor does the first line of a program end it. -/
theorem Names.ne_return {header name : List Char} (h : Names header name) :
    header ≠ "return".toList := by
  rintro rfl
  generalize ret : "return".toList = text at h
  cases h
  exact absurd ret (by simp)

/-- What the lines of a text come to is settled before the line that ends the program. -/
theorem Composes.of_ends {block tail tail' : List (List Char)} {name : List Char}
    {instructions : List Instruction} (h : Composes (block ++ tail) name instructions)
    (ends : Ends tail) (ends' : Ends tail') : Composes (block ++ tail') name instructions := by
  generalize eq : block ++ tail = texts at h
  obtain @⟨header, _, statements, rest, _, named, asked, stop⟩ := h
  have goesOn : ∀ text ∈ header :: statements, text ≠ "return".toList := by
    intro text mem
    rcases List.mem_cons.1 mem with rfl | mem
    · exact named.ne_return
    · exact ne_return_of_forall₂_asks asked text mem
  rw [← List.cons_append, List.append_eq_append_iff] at eq
  rcases eq with ⟨more, eq, rfl⟩ | ⟨more, rfl, rfl⟩
  · -- The block is over with the statements, since no statement begins the tail.
    cases more with
    | nil =>
      rw [List.append_nil] at eq
      rw [← eq, List.cons_append]
      exact .intro named asked ends'
    | cons text more =>
      exact absurd (ends text rfl) (goesOn text (eq ▸ by simp))
  · rw [List.append_assoc, List.cons_append]
    refine .intro named asked ?_
    cases more with
    | nil => exact ends'
    | cons text more => exact stop

/-- A text is read as a program iff the lines that it lays out come to that program, with the
    text as its source. Another text that lays out the same lines, as far as the program goes,
    is read as the same program, but for its source. -/
theorem read_iff_composes (source : String) :
    (∀ p, Script.read source = .ok p ↔ ∃ texts, Laid source.toList texts ∧
      Composes texts p.name.toList p.instructions ∧ p.sourceText = some source) ∧
    ∀ (other : String) (block tail tail' : List (List Char)),
      Laid source.toList (block ++ tail) → Laid other.toList (block ++ tail') →
      Ends tail → Ends tail' → ∀ p, Script.read source = .ok p →
        Script.read other = .ok { p with sourceText := some other } := by
  constructor
  · intro p
    simp only [read_iff_composes_significantTexts, ← significantTexts_eq_iff, exists_eq_left']
  · intro other block tail tail' laid laid' ends ends' p read
    rw [read_iff_composes_significantTexts] at read ⊢
    rw [laid.significantTexts_eq] at read
    rw [laid'.significantTexts_eq]
    exact ⟨read.1.of_ends ends ends', rfl⟩

/-- A script with blank lines, three kinds of line breaks, digits of another writing system and
    a rest that is no script, and the same script in a plain layout. -/
theorem read_iff_composes_two_layouts :
    let block := ["def  Pinball".toList, "if red hits wall +\u0663 times".toList,
      "set speed relative -.5e1".toList, "set direction up-left".toList]
    let rest := ["return".toList, "no statement".toList]
    let source := "\n def  Pinball\r\n\tif red hits wall +\u0663 times \u2028" ++
      "set speed relative -.5e1\n\n  set direction up-left\nreturn\nno statement\n"
    let other := "def  Pinball\nif red hits wall +\u0663 times\n" ++
      "set speed relative -.5e1\nset direction up-left"
    Laid source.toList (block ++ rest) ∧ Laid other.toList (block ++ []) ∧ Ends rest ∧ Ends [] ∧
      ∃ p, Script.read source = .ok p ∧
        Script.read other = .ok { p with sourceText := some other } := by
  intro block rest source other
  have laid : Laid source.toList (block ++ rest) := by
    rw [← significantTexts_eq_iff]
    decide +kernel
  have laid' : Laid other.toList (block ++ []) := by
    rw [← significantTexts_eq_iff]
    decide +kernel
  have ends : Ends rest := by
    rintro _ ⟨⟩
    rfl
  have unfaulted : fault? (Script.read source) = none := by decide +kernel
  obtain ⟨p, read⟩ := fault?_eq_none_iff.1 unfaulted
  exact ⟨laid, laid', ends, nofun, p, read,
    (read_iff_composes source).2 other block rest [] laid laid' ends nofun p read⟩

end Carom.Script
