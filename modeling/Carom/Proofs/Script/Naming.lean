import Carom.Proofs.Script.Excerpt
import Carom.Script.Editor

/-!
# The name that a text seems to give

The readers find the name of a program in the lines that are not blank, the first of which has to
begin a program. The editor guesses the name of a malformed text by itself: it goes over all lines
until one of them has a name. A line that begins a program always has one, so this is the first such
line, whatever stands before it (`guessName_eq`). Where a text is a script the two find the same
line, so the first program that comes of a text always bears the guessed name
(`exists_head?_programs`). A guess sees nothing but that line, so it outlives any damage to the rest
of the text (`guessName_of_edited`).
-/

namespace Carom.Script

open Text

/-- Whether a line of a text begins a program, the blanks around it apart. -/
def beginsProgram (line : List Char) : Bool := startsWith "def" (trim isBlank line)

/-- The name in the first line that begins a program. -/
def headerName? (ls : List (List Char)) : Option (List Char) :=
  (ls.find? beginsProgram).map fun line => trim isBlank (after "def" (trim isBlank line))

/-! ## The guess -/

/-- The lines with a name are those that begin a program. -/
theorem nameIn?_eq (line : List Char) : nameIn? line =
    if beginsProgram line then some (trim isBlank (after "def" (trim isBlank line))) else none := by
  rw [nameIn?, beginsProgram]
  cases begins : startsWith "def" (trim isBlank line) with
  | true =>
    have named := name_ne_nil (trimmed_trim line) begins
    simp [named]
  | false => rfl

/-- To look for a name is to look for a line that begins a program. -/
theorem findSome?_nameIn? (ls : List (List Char)) : ls.findSome? nameIn? = headerName? ls := by
  induction ls with
  | nil => rfl
  | cons line ls ih =>
    rw [List.findSome?_cons, nameIn?_eq, headerName?]
    cases begins : beginsProgram line with
    | true =>
      rw [List.find?_cons_of_pos begins]
      rfl
    | false =>
      rw [List.find?_cons_of_neg (by simp [begins]), ← headerName?, ← ih]
      rfl

/-- A text is named by its first line that begins a program. -/
theorem guessName_eq (source : String) : guessName source =
    ((headerName? (lines source.toList)).map String.ofList).getD defaultName := by
  rw [guessName, findSome?_nameIn?]
  cases headerName? (lines source.toList) <;> rfl

/-- Blank lines begin no program, so it makes no difference whether they are passed over. -/
theorem map_name_find?_significantFrom (n : Nat) (ls : List (List Char)) :
    ((significantFrom n ls).find? Line.isHeader).map Line.name = headerName? ls := by
  induction ls generalizing n with
  | nil => rfl
  | cons line ls ih =>
    rw [significantFrom, headerName?]
    split
    · -- A blank line gives no line that counts, and is no header either.
      rename_i blank
      have none : beginsProgram line = false := by
        rw [beginsProgram, List.isEmpty_iff.1 blank]
        rfl
      rw [List.find?_cons_of_neg (by simp [none]), ih, headerName?]
    · cases begins : beginsProgram line with
      | true =>
        have isHeader : Line.isHeader ⟨n, trim isBlank line⟩ := begins
        rw [List.find?_cons_of_pos isHeader, List.find?_cons_of_pos begins]
        rfl
      | false =>
        have notHeader : ¬Line.isHeader ⟨n, trim isBlank line⟩ :=
          (Bool.eq_false_iff.1 begins : ¬beginsProgram line = true)
        rw [List.find?_cons_of_neg notHeader, List.find?_cons_of_neg (by simp [begins]), ih,
          headerName?]

/-- Lines that begin no program do not matter in front of others. -/
theorem headerName?_append {front : List (List Char)}
    (h : ∀ line ∈ front, beginsProgram line = false) (back : List (List Char)) :
    headerName? (front ++ back) = headerName? back := by
  have none : front.find? beginsProgram = none :=
    List.find?_eq_none.2 fun line mem => by simp [h line mem]
  rw [headerName?, List.find?_append, none, Option.none_or, headerName?]

/-- Nothing behind a line that begins a program matters. -/
theorem headerName?_cons {header : List Char} (h : beginsProgram header)
    (after after' : List (List Char)) : headerName? (header :: after) =
      headerName? (header :: after') := by
  rw [headerName?, headerName?, List.find?_cons_of_pos h, List.find?_cons_of_pos h]

/-! ## Scripts -/

/-- The first program of a script bears the guessed name. -/
theorem exists_head?_of_readAll {source : String} {ps : List Program}
    (h : readAll source = .ok ps) : ∃ p, ps.head? = some p ∧ p.name = guessName source := by
  obtain ⟨ne, programs⟩ := readAll_eq_ok_iff.1 h
  obtain ⟨header, rest, lines⟩ := List.exists_cons_of_ne_nil ne
  obtain ⟨c, more, cut, rfl, -⟩ := exists_chunks_cons header rest
  rw [lines, cut] at programs
  obtain ⟨p, others, read, -, rfl⟩ := List.forall₂_cons_left_iff.1 programs
  obtain ⟨isHeader, -, named, -⟩ := program_eq_ok_iff.1 read
  refine ⟨p, rfl, ?_⟩
  rw [named, guessName_eq, ← map_name_find?_significantFrom 1, ← significant, lines,
    List.find?_cons_of_pos isHeader]
  rfl

/-- Whatever comes of a text, the first program bears the guessed name. -/
theorem exists_head?_programs {source : String} {c : Compilation} (h : compile source = .ok c) :
    ∃ p, c.programs.head? = some p ∧ p.name = guessName source := by
  rw [compile] at h
  split at h
  · rename_i ps read
    cases h
    obtain ⟨p, first, named⟩ := exists_head?_of_readAll read
    refine ⟨{ p with sourceText := some source }, ?_, named⟩
    rw [Compilation.programs, List.head?_map, first, Option.map_some]
  · cases h
    exact ⟨_, rfl, rfl⟩
  · cases h

/-! ## Damage -/

/-- Lines before and after they were edited. Any of them may have been put in, taken out or
    replaced, but not the first one that begins a program, and none that comes before it now
    begins a program. -/
inductive Edited : List (List Char) → List (List Char) → Prop
  | intro {before before' after after' : List (List Char)} {header : List Char} :
      beginsProgram header → (∀ line ∈ before, beginsProgram line = false) →
      (∀ line ∈ before', beginsProgram line = false) →
      Edited (before ++ header :: after) (before' ++ header :: after')

/-- The first line that begins a program is the same one before and after. -/
theorem Edited.headerName?_eq {ls ms : List (List Char)} (h : Edited ls ms) :
    headerName? ms = headerName? ls := by
  obtain ⟨begins, none, none'⟩ := h
  rw [headerName?_append none, headerName?_append none', headerName?_cons begins]

/-- So the guess survives the edits. -/
theorem guessName_of_edited {source t : String}
    (h : Edited (lines source.toList) (lines t.toList)) : guessName t = guessName source := by
  rw [guessName_eq, guessName_eq, h.headerName?_eq]

/-- The name that is guessed for a script is that of its first program. A text that is malformed
    after edits anywhere but in the first line that begins a program is kept under that name. -/
theorem keepsFirstName (source : String) (ps : List Program) (h : readAll source = .ok ps) :
    ∃ first, ps.head? = some first ∧ guessName source = first.name ∧
      ∀ (t : String) (p : Program) (e : SyntaxError),
        Edited (lines source.toList) (lines t.toList) → compile t = .ok (.kept p e) →
          p.name = first.name := by
  obtain ⟨first, head, named⟩ := exists_head?_of_readAll h
  refine ⟨first, head, named.symm, fun t p e edited kept => ?_⟩
  -- The one program of a malformed text is its first one, so it bears the guess as well.
  obtain ⟨q, only, guessed⟩ := exists_head?_programs kept
  obtain rfl : p = q := Option.some.inj only
  rw [guessed, guessName_of_edited edited, named]

/-- A script of two programs. Then a line is put in at its front, the lines between the names are
    replaced by a blank one, and the rest is taken out but for another name. -/
theorem keepsFirstName_front_line :
    let source := "\r\n\tdef  Pin ball \u2028set speed 2\nreturn\n\ndef other"
    let t := "defective\n\tdef  Pin ball \r\n \ndef other one"
    ∃ ps first p e, readAll source = .ok ps ∧ ps.head? = some first ∧
      Edited (lines source.toList) (lines t.toList) ∧ compile t = .ok (.kept p e) ∧
      guessName source = first.name ∧ p.name = first.name := by
  intro source t
  have unfaulted : fault? (readAll source) = none := by decide +kernel
  obtain ⟨ps, read⟩ := fault?_eq_none_iff.1 unfaulted
  let e : SyntaxError := .at ⟨1, "defective".toList⟩ .noHeader
  have faulted : fault? (readAll t) = some (.malformed e) := by decide +kernel
  have kept : compile t = .ok (.kept ⟨guessName t, [], some (annotate t e.message)⟩ e) := by
    rw [compile, fault?_eq_some_iff.1 faulted]
  have edited : Edited (lines source.toList) (lines t.toList) := by
    have lines_source : lines source.toList = [[]] ++ "\tdef  Pin ball ".toList ::
        ["set speed 2".toList, "return".toList, [], "def other".toList] := by decide +kernel
    have lines_t : lines t.toList = ["defective".toList] ++ "\tdef  Pin ball ".toList ::
        [" ".toList, "def other one".toList] := by decide +kernel
    rw [lines_source, lines_t]
    exact .intro (by decide) (by decide) (by decide)
  obtain ⟨first, head, guessed, edits⟩ := keepsFirstName source ps read
  exact ⟨ps, first, _, e, read, head, edited, kept, guessed, edits t _ e edited kept⟩

end Carom.Script
