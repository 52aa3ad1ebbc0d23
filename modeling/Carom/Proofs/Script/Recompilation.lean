import Carom.Proofs.Script.Annotation
import Carom.Proofs.Script.Naming

/-!
# Compiling a stored text again

The programs of a script keep its text, so that compiling it again gives these programs. A
malformed text is kept below a note, and scripts have no notes: the stored text is malformed for the
first line of its note, whatever was wrong with the text below. Compiling it again keeps the same
empty program under the same name (`guessName_annotate`), but puts another note on top, about the
first one (`readAll_annotate`).

* `compile_sourceText`: what comes of the stored text of any program.
* `recompiles`: which parts of the programs are the same, and which one is not.
* `Rounds.below_of_kept`: one note more in each round, and below all of them still the text
  (`Below.afterFeeds_eq`).
-/

namespace Carom.Script

open Text

/-! ## The first line of a note -/

/-- A message ends with a bracket or with a letter. -/
theorem SyntaxError.exists_message_eq_append (e : SyntaxError) :
    ∃ said last, e.message.toList = said ++ [last] ∧ isBlank last = false := by
  cases e with
  | empty => exact ⟨"Empty progra".toList, 'm', by decide +kernel, by decide⟩
  | «at» line cause =>
    refine ⟨(cause.message line.text ++ " (line " ++ toString line.number).toList, ')', ?_,
      by decide⟩
    rw [SyntaxError.message, String.toList_append]
    rfl

/-- Nothing of the line with a message is cut off. -/
theorem trimmed_errorLine (e : SyntaxError) : Trimmed (errorLine e.message).toList := by
  obtain ⟨said, last, message, noBlank⟩ := e.exists_message_eq_append
  rw [toList_errorLine, message]
  constructor
  · rintro c ⟨⟩
    decide
  · intro c mem
    rw [← List.append_assoc, List.getLast?_concat] at mem
    rwa [← Option.some.inj mem]

theorem not_startsWith_errorLine (message : String) :
    startsWith "def" (errorLine message).toList = false := by
  rw [toList_errorLine]
  rfl

/-- The line with the message begins no program, whatever the message is. -/
theorem beginsProgram_errorLine (e : SyntaxError) :
    beginsProgram (errorLine e.message).toList = false := by
  rw [beginsProgram, (trimmed_errorLine e).trim_eq, not_startsWith_errorLine]

/-! ## Texts below a note -/

/-- What is wrong with a text below a note about an error: the note. -/
def SyntaxError.ofNote (e : SyntaxError) : SyntaxError :=
  .at ⟨1, (errorLine e.message).toList⟩ .noHeader

/-- The message about a note quotes the message in it. -/
theorem SyntaxError.message_ofNote (e : SyntaxError) : e.ofNote.message =
    "Expected 'def function_name', found: // SYNTAX ERROR: " ++ e.message ++ " (line 1)" := by
  have found : "Expected 'def function_name', found: " ++ "// SYNTAX ERROR: " =
      "Expected 'def function_name', found: // SYNTAX ERROR: " := by decide +kernel
  have place : " (line " ++ toString 1 ++ ")" = " (line 1)" := by decide +kernel
  have regroup (a b said c d f : String) :
      a ++ (b ++ said) ++ c ++ d ++ f = a ++ b ++ said ++ (c ++ d ++ f) := by
    simp only [String.append_assoc]
  calc e.ofNote.message
      = "Expected 'def function_name', found: " ++
          String.ofList ("// SYNTAX ERROR: " ++ e.message).toList ++ " (line " ++ toString 1 ++
            ")" := rfl
    _ = "Expected 'def function_name', found: " ++ "// SYNTAX ERROR: " ++ e.message ++
          (" (line " ++ toString 1 ++ ")") := by rw [String.ofList_toList, regroup]
    _ = "Expected 'def function_name', found: // SYNTAX ERROR: " ++ e.message ++ " (line 1)" :=
        congrArg₂ (fun before after => before ++ e.message ++ after) found place

section

variable (source : String) {e : SyntaxError} (unbroken : Unbroken e.message.toList)

include unbroken

/-- A text below a note is malformed for its first line, and the rest is of no account. -/
theorem readAll_annotate :
    readAll (annotate source e.message) = .error (.malformed e.ofNote) := by
  -- The message does not break, so all of it is on the first line of the text.
  have found : ∃ rest, significant (annotate source e.message).toList =
      ⟨1, (errorLine e.message).toList⟩ :: rest := by
    refine ⟨significantFrom 2 (hintLine.toList :: [] :: lines source.toList), ?_⟩
    rw [significant, lines_annotate source unbroken, significantFrom,
      (trimmed_errorLine e).trim_eq, if_neg (by simp [toList_errorLine])]
  obtain ⟨rest, found⟩ := found
  have wrong : Line.fault? false ⟨1, (errorLine e.message).toList⟩ =
      some (.malformed e.ofNote) := by
    rw [Line.fault?, if_neg (by simp [Line.isHeader, not_startsWith_errorLine]),
      if_neg Bool.false_ne_true, SyntaxError.ofNote]
  rw [← fault?_eq_some_iff, fault?_readAll, found, if_neg (List.cons_ne_nil _ rest), firstFault?,
    wrong, Option.some_or]

/-- No line of a note seems to give a name. -/
theorem guessName_annotate : guessName (annotate source e.message) = guessName source := by
  have none : ∀ line ∈ [(errorLine e.message).toList, hintLine.toList, []],
      beginsProgram line = false := by
    simp only [List.forall_mem_cons]
    exact ⟨beginsProgram_errorLine e, by decide +kernel, by decide, List.forall_mem_nil _⟩
  have note : lines (annotate source e.message).toList =
      [(errorLine e.message).toList, hintLine.toList, []] ++ lines source.toList :=
    lines_annotate source unbroken
  rw [guessName_eq, guessName_eq, note, headerName?_append none]

/-- So one more note is put on top, under the same name. -/
theorem compile_annotate : compile (annotate source e.message) = .ok (.kept
    ⟨guessName source, [], some (annotate (annotate source e.message) e.ofNote.message)⟩
    e.ofNote) := by
  rw [compile, readAll_annotate source unbroken, guessName_annotate source unbroken]

/-- A message about a note breaks no more than the one in it. -/
theorem unbroken_message_ofNote : Unbroken e.ofNote.message.toList :=
  unbroken_message_of_readAll (readAll_annotate "" unbroken)

end

/-- A note makes a text longer. -/
theorem annotate_ne (source message : String) : annotate source message ≠ source := by
  intro same
  have length := congrArg (fun text => text.toList.length) same
  simp only [toList_annotate, List.length_append, List.length_cons] at length
  omega

/-! ## One more round -/

/-- What is kept is malformed, and is kept by one program. -/
theorem compile_eq_kept_iff {source : String} {p : Program} {e : SyntaxError} :
    compile source = .ok (.kept p e) ↔ readAll source = .error (.malformed e) ∧
      p = ⟨guessName source, [], some (annotate source e.message)⟩ := by
  constructor
  · intro h
    rw [compile] at h
    split at h
    · cases h
    · rename_i malformed
      cases h
      exact ⟨malformed, rfl⟩
    · cases h
  · rintro ⟨malformed, rfl⟩
    rw [compile, malformed]

/-- What comes of the text that is stored with a program: of a script the same programs, of a
    malformed text the same program with one more note. -/
def Compilation.again : Compilation → Compilation
  | compiled ps => compiled ps
  | kept p e =>
    kept { p with sourceText := p.sourceText.map (annotate · e.ofNote.message) } e.ofNote

theorem compile_sourceText {source : String} {c : Compilation} (h : compile source = .ok c)
    {p : Program} (mem : p ∈ c.programs) :
    ∃ stored, p.sourceText = some stored ∧ compile stored = .ok c.again := by
  cases c with
  | compiled ps =>
    have compiles := h
    rw [compile] at compiles
    split at compiles
    · cases compiles
      obtain ⟨q, -, rfl⟩ := List.mem_map.1 mem
      exact ⟨source, rfl, h⟩
    · cases compiles
    · cases compiles
  | kept q e =>
    obtain rfl := List.mem_singleton.1 mem
    obtain ⟨malformed, rfl⟩ := compile_eq_kept_iff.1 h
    exact ⟨_, rfl, compile_annotate source (unbroken_message_of_readAll malformed)⟩

/-- Compiling the text of any program again gives the same programs, with the same texts. -/
def Stable (source : String) : Prop :=
  ∀ c, compile source = .ok c → ∀ p ∈ c.programs, ∃ stored again, p.sourceText = some stored ∧
    compile stored = .ok again ∧ again.programs = c.programs

/-- Scripts are stable, and so is what cannot be compiled at all. Malformed texts are not. -/
theorem stable_iff (source : String) :
    Stable source ↔ ∀ e, readAll source ≠ .error (.malformed e) := by
  constructor
  · intro stable e malformed
    have kept := compile_eq_kept_iff.2 ⟨malformed, rfl⟩
    obtain ⟨stored, again, ⟨⟩, compiles, same⟩ := stable _ kept _ (List.mem_singleton_self _)
    obtain ⟨_, ⟨⟩, compiles'⟩ := compile_sourceText kept (List.mem_singleton_self _)
    obtain rfl := Except.ok.inj (compiles.symm.trans compiles')
    have texts := congrArg (List.map Program.sourceText) same
    simp only [Compilation.again, Compilation.programs, List.map_cons, List.map_nil,
      Option.map_some, List.cons.injEq, Option.some.injEq, and_true] at texts
    exact annotate_ne _ _ texts
  · intro wellFormed c h p mem
    obtain ⟨stored, kept, compiles⟩ := compile_sourceText h mem
    refine ⟨stored, c.again, kept, compiles, ?_⟩
    cases c with
    | compiled ps => rfl
    | kept q e => exact absurd (compile_eq_kept_iff.1 h).1 (wellFormed e)

/-- A text without a name is put below a note, and below another one when it is compiled again. -/
theorem not_stable_of_statement_alone : ¬Stable "set speed 1" := by
  rw [stable_iff]
  intro wellFormed
  have faulted : fault? (readAll "set speed 1") =
      some (.malformed (.at ⟨1, "set speed 1".toList⟩ .noHeader)) := by decide +kernel
  exact wellFormed _ (fault?_eq_some_iff.1 faulted)

/-- What comes of a stored text, next to the programs that it was stored with. -/
structure Recompiles (c : Compilation) (stored : String) (again : Compilation) : Prop where
  compiles : compile stored = .ok again
  names : again.programs.map Program.name = c.programs.map Program.name
  instructions : again.programs.map Program.instructions = c.programs.map Program.instructions
  /-- The programs of a script have the same text as well. -/
  script : ∀ ps, c = .compiled ps → again.programs = c.programs
  /-- The text of a malformed one is below one more note, which is about the first line of the
      note that it has. -/
  malformed : ∀ p e, c = .kept p e → again.programs.map Program.sourceText =
    [some (annotate stored
      ("Expected 'def function_name', found: // SYNTAX ERROR: " ++ e.message ++ " (line 1)"))]

/-- Compiling the text of any program again gives programs of the same names, with the same
    instructions. The text of a script stays the same, that of a malformed one does not. -/
theorem recompiles (source : String) (c : Compilation) (h : compile source = .ok c) (p : Program)
    (mem : p ∈ c.programs) :
    ∃ stored again, p.sourceText = some stored ∧ Recompiles c stored again := by
  obtain ⟨stored, kept, compiles⟩ := compile_sourceText h mem
  refine ⟨stored, c.again, kept, compiles, ?_, ?_, ?_, ?_⟩
  · cases c <;> rfl
  · cases c <;> rfl
  · rintro ps rfl
    rfl
  · rintro q e rfl
    obtain rfl := List.mem_singleton.1 mem
    simp only [Compilation.again, Compilation.programs, List.map_cons, List.map_nil, kept,
      Option.map_some, e.message_ofNote]

/-- A text that is malformed for its last line, and empty lines around it. -/
theorem recompiles_last_line :
    let source := "\n\tdef p\u2028set direction north\n\n"
    ∃ p e, compile source = .ok (.kept p e) ∧
      ∃ stored again, p.sourceText = some stored ∧ Recompiles (.kept p e) stored again := by
  intro source
  let e : SyntaxError :=
    .at ⟨3, "set direction north".toList⟩ (.unknownDirection "north".toList)
  have faulted : fault? (readAll source) = some (.malformed e) := by decide +kernel
  have kept := compile_eq_kept_iff.2 ⟨fault?_eq_some_iff.1 faulted, rfl⟩
  exact ⟨_, e, kept, recompiles source _ kept _ (List.mem_singleton_self _)⟩

/-! ## Many rounds -/

/-- What comes of a compilation when the text of one of its programs is compiled, and the text of
    one of the programs that come of that, and so on for so many rounds. -/
inductive Rounds (c : Compilation) : Nat → Compilation → Prop
  | none : Rounds c 0 c
  | more {n : Nat} {d again : Compilation} {p : Program} {stored : String} : Rounds c n d →
      p ∈ d.programs → p.sourceText = some stored → compile stored = .ok again →
      Rounds c (n + 1) again

/-- A text with so many notes on top of it. -/
inductive Below (source : String) : Nat → String → Prop
  | none : Below source 0 source
  | more {n : Nat} {text message : String} : Below source n text → Unbroken message.toList →
      Below source (n + 1) (annotate text message)

/-- The notes take three lines each. -/
theorem Below.length_lines {source text : String} {n : Nat} (h : Below source n text) :
    (lines text.toList).length = 3 * n + (lines source.toList).length := by
  induction h with
  | none => rw [Nat.mul_zero, Nat.zero_add]
  | more _ unbroken ih =>
    rw [lines_annotate _ unbroken]
    simp only [List.length_cons, ih]
    omega

/-- The text is what is left behind all notes. -/
theorem Below.afterFeeds_eq {source text : String} {n : Nat} (h : Below source n text) :
    afterFeeds (3 * n) text.toList = source.toList := by
  induction h with
  | none => rw [Nat.mul_zero, afterFeeds]
  | more _ unbroken ih => rw [Nat.mul_succ, afterFeeds_annotate _ unbroken, ih]

section

variable {source : String} {c d : Compilation} {n : Nat} (rounds : Rounds c n d)

include rounds

/-- What there is after some rounds has come of a text. -/
theorem Rounds.exists_compile (h : compile source = .ok c) : ∃ text, compile text = .ok d := by
  cases rounds with
  | none => exact ⟨source, h⟩
  | more _ _ _ compiles => exact ⟨_, compiles⟩

/-- The programs of a script never change. -/
theorem Rounds.eq_of_compiled {ps : List Program} (h : compile source = .ok c)
    (script : c = .compiled ps) : d = c := by
  subst script
  induction rounds with
  | none => rfl
  | more rounds mem kept compiles ih =>
    subst ih
    obtain ⟨stored, kept', compiles'⟩ := compile_sourceText h mem
    obtain rfl := Option.some.inj (kept.symm.trans kept')
    exact Except.ok.inj (compiles.symm.trans compiles')

/-- A malformed text keeps its program, and gets one more note in each round. -/
theorem Rounds.below_of_kept {p : Program} {e : SyntaxError} (h : compile source = .ok c)
    (malformed : c = .kept p e) : ∃ text e', Below source (n + 1) text ∧
      d = .kept { p with sourceText := some text } e' := by
  subst malformed
  induction rounds with
  | none =>
    obtain ⟨malformed, rfl⟩ := compile_eq_kept_iff.1 h
    exact ⟨_, e, .more .none (unbroken_message_of_readAll malformed), rfl⟩
  | more rounds mem kept compiles ih =>
    obtain ⟨text, e', below, rfl⟩ := ih
    -- The text that was compiled in the round before is malformed as well, so its message does
    -- not break and the next note takes three lines again.
    obtain ⟨source', compiled⟩ := rounds.exists_compile h
    obtain ⟨stored, kept', compiles'⟩ := compile_sourceText compiled mem
    obtain rfl := List.mem_singleton.1 mem
    obtain rfl := Option.some.inj (kept.symm.trans kept')
    obtain rfl := Option.some.inj kept
    have unbroken := unbroken_message_of_readAll (compile_eq_kept_iff.1 compiled).1
    exact ⟨_, e'.ofNote, .more below (unbroken_message_ofNote unbroken),
      Except.ok.inj (compiles.symm.trans compiles')⟩

end

end Carom.Script
