import Carom.Proofs.Script.Acceptance
import Carom.Proofs.Script.Numbering

/-!
# The text of one program

Each program of a script has the part of the text that its chunk covers. That part is a
script of its own: its lines are those of the chunk, with numbers that begin with one again,
and they are one chunk as they were before.

* `significant_text`: the lines of the text of a chunk.
* `chunks_lines`: they are not cut any further.
* `read_sourceText`: so the text of each program is read as that program, by itself and as a
  script of one program; and if a whole script can be read by itself as well, that gives its
  first program.
-/

namespace Carom.Script

open Text

/-! ## Chunks -/

/-- Lines that are cut out as they are: nothing but the last one ends the chunk. -/
structure Chunk.Closed (c : Chunk) : Prop where
  inner : ∀ l ∈ c.statements, l.isInner
  ends : ∀ l ∈ c.last?, l.isReturn

/-- The line that begins a program is none of its statements. -/
theorem isInner_of_isHeader {l : Line} (h : l.isHeader) : l.isInner = false := by
  simp [Line.isInner, h]

/-- Nor is the line that ends it. -/
theorem isInner_of_isReturn {l : Line} (h : l.isReturn) : l.isInner = false := by
  simp [Line.isInner, h]

/-- No line both ends a program and begins one. -/
theorem isHeader_of_isReturn {l : Line} (h : l.isReturn) : l.isHeader = false := by
  rw [← Bool.not_eq_true]
  intro isHeader
  rw [isReturn_of_isHeader isHeader] at h
  cases h

theorem Chunk.mem_lines_iff {c : Chunk} {l : Line} :
    l ∈ c.lines ↔ l = c.header ∨ l ∈ c.statements ∨ c.last? = some l := by
  simp [Chunk.lines]

/-- Each chunk has statements inside, and a line that ends it behind them, if any. -/
theorem closed_of_mem_chunks {ls : List Line} {c : Chunk} (h : c ∈ chunks ls) : c.Closed := by
  have inner (rest : List Line) : ∀ l ∈ rest.takeWhile Line.isInner, l.isInner :=
    List.all_eq_true.1 List.all_takeWhile
  fun_induction chunks ls with
  | case1 => cases h
  | case2 header rest statements none =>
    obtain rfl := List.mem_singleton.1 h
    exact ⟨inner rest, by simp⟩
  | case3 header rest statements next more found isHeader ih =>
    rcases List.mem_cons.1 h with rfl | h
    · exact ⟨inner rest, by simp⟩
    · exact ih h
  | case4 header rest statements next more found notHeader ih =>
    rcases List.mem_cons.1 h with rfl | h
    · refine ⟨inner rest, fun l mem => ?_⟩
      rw [← Option.some.inj mem]
      exact isReturn_of_dropWhile found notHeader
    · exact ih h

/-- The lines of a chunk alone are that chunk. -/
theorem chunks_lines {c : Chunk} (h : c.Closed) : chunks c.lines = [c] := by
  obtain ⟨header, statements, last?⟩ := c
  -- The statements stop at the last line, if there is one, and else at the end.
  have stop : last?.toList.takeWhile Line.isInner = [] ∧
      last?.toList.dropWhile Line.isInner = last?.toList := by
    cases last? with
    | none => exact ⟨rfl, rfl⟩
    | some l => simp [isInner_of_isReturn (h.ends l rfl)]
  have taken : (statements ++ last?.toList).takeWhile Line.isInner = statements := by
    rw [List.takeWhile_append_of_pos h.inner, stop.1, List.append_nil]
  have left : (statements ++ last?.toList).dropWhile Line.isInner = last?.toList := by
    rw [List.dropWhile_append_of_pos h.inner, stop.2]
  simp only [Chunk.lines, List.cons_append]
  rw [chunks]
  simp only [taken]
  split
  · rename_i none
    rw [left] at none
    rw [Option.toList_eq_nil_iff.1 none]
  · rename_i next more some
    rw [left] at some
    obtain ⟨rfl, rfl⟩ : last? = .some next ∧ more = [] := by
      cases last? <;> simp_all
    rw [if_neg (by simp [isHeader_of_isReturn (h.ends next rfl)]), chunks]

/-- A chunk with numbers that are less by `k`. -/
def Chunk.earlier (k : Nat) (c : Chunk) : Chunk where
  header := c.header.earlier k
  statements := c.statements.map (Line.earlier k)
  last? := c.last?.map (Line.earlier k)

section

variable (k : Nat) (c : Chunk)

theorem Chunk.lines_earlier : (c.earlier k).lines = c.lines.map (Line.earlier k) := by
  cases h : c.last? <;> simp [Chunk.lines, Chunk.earlier, h]

/-- A chunk stays one further up. -/
theorem Chunk.Closed.earlier {c : Chunk} (h : c.Closed) : (c.earlier k).Closed where
  inner l mem := by
    obtain ⟨m, own, rfl⟩ := List.mem_map.1 mem
    exact h.inner m own
  ends l mem := by
    obtain ⟨m, own, rfl⟩ := Option.map_eq_some_iff.1 mem
    exact h.ends m own

/-- A chunk is over, or goes on with the line that ends a program. -/
theorem Chunk.Closed.ends_text {c : Chunk} (h : c.Closed) :
    Ends (c.last?.toList.map Line.text) := by
  intro text mem
  cases last : c.last? with
  | none => simp [last] at mem
  | some l =>
    have isReturn := h.ends l last
    simp only [last, Option.toList_some, List.map_cons, List.head?_cons] at mem
    cases mem
    simpa [Line.isReturn] using isReturn

/-- The number of the last line is the last number. -/
theorem Chunk.exists_getLast?_lines :
    ∃ l, c.lines.getLast? = some l ∧ c.lastNumber = l.number := by
  obtain ⟨header, statements, last?⟩ := c
  cases last? with
  | some l => exact ⟨l, List.getLast?_concat, rfl⟩
  | none => exact ⟨statements.getLast?.getD header, by simp [Chunk.lines, List.getLast?_cons], rfl⟩

/-- Its last line moves with the others. -/
theorem Chunk.lastNumber_earlier : (c.earlier k).lastNumber = c.lastNumber - k := by
  obtain ⟨l, last, number⟩ := c.exists_getLast?_lines
  obtain ⟨m, last', number'⟩ := (c.earlier k).exists_getLast?_lines
  rw [Chunk.lines_earlier, List.getLast?_map, last] at last'
  rw [number, number', ← Option.some.inj last']
  rfl

end

/-- Whether a line is a statement, and which one, does not depend on its number. -/
theorem statement_earlier_eq_ok_iff {k : Nat} {l : Line} {i : Instruction} :
    (l.earlier k).statement = .ok i ↔ l.statement = .ok i := by
  rw [statement_iff_asks, statement_iff_asks]
  rfl

/-! ## The text of a chunk -/

theorem Chunk.text_eq (c : Chunk) (ls : List (List Char)) :
    c.text ls = join (excerpt c.header.number c.lastNumber ls) := rfl

section

variable {source : List Char} {c : Chunk} (h : c ∈ chunks (significant source))

include h

/-- The lines of a chunk are in a row. -/
theorem exists_significant_eq_append :
    ∃ before after, significant source = before ++ c.lines ++ after := by
  obtain ⟨front, back, cut⟩ := List.append_of_mem h
  have all := flatMap_chunks (significant source)
  rw [cut, List.flatMap_append, List.flatMap_cons, ← List.append_assoc] at all
  exact ⟨_, _, all.symm⟩

/-- The numbers of a chunk are in order, and numbers of the text. -/
theorem number_bounds_of_mem_chunks : 1 ≤ c.header.number ∧ c.header.number ≤ c.lastNumber ∧
    c.lastNumber ≤ (lines source).length := by
  obtain ⟨before, after, eq⟩ := exists_significant_eq_append h
  obtain ⟨last, found, number⟩ := c.exists_getLast?_lines
  rw [number]
  exact number_bounds eq rfl found

/-- A chunk covers its own lines and no others. -/
theorem significantFrom_excerpt_of_mem_chunks :
    significantFrom c.header.number (excerpt c.header.number c.lastNumber (lines source)) =
      c.lines := by
  obtain ⟨before, after, eq⟩ := exists_significant_eq_append h
  obtain ⟨last, found, number⟩ := c.exists_getLast?_lines
  rw [number]
  exact significantFrom_excerpt eq rfl found

/-- The text of a chunk comes apart into the lines of the whole text that it covers. -/
theorem lines_text : lines (c.text (lines source)) =
    excerpt c.header.number c.lastNumber (lines source) := by
  obtain ⟨before, after, eq⟩ := exists_significant_eq_append h
  obtain ⟨last, found, number⟩ := c.exists_getLast?_lines
  rw [c.text_eq, number]
  exact lines_join (fun l mem => unbroken_of_mem_lines (mem_of_mem_excerpt mem)) fun l mem =>
    ne_nil_of_getLast?_excerpt eq rfl found mem

/-- The lines in the text of a chunk are its own, numbered from one. -/
theorem significant_text : significant (c.text (lines source)) =
    (c.earlier (c.header.number - 1)).lines := by
  have pos := (number_bounds_of_mem_chunks h).1
  have first : 1 + (c.header.number - 1) = c.header.number := by omega
  calc significant (c.text (lines source))
      = significantFrom 1 (excerpt c.header.number c.lastNumber (lines source)) := by
        rw [significant, lines_text h]
    _ = (significantFrom c.header.number
          (excerpt c.header.number c.lastNumber (lines source))).map
            (Line.earlier (c.header.number - 1)) := by
        rw [← map_earlier_significantFrom 1 (c.header.number - 1), first]
    _ = (c.earlier (c.header.number - 1)).lines := by
        rw [significantFrom_excerpt_of_mem_chunks h, Chunk.lines_earlier]

/-- The text of a chunk is the text of all its lines again. -/
theorem text_earlier_lines_text :
    (c.earlier (c.header.number - 1)).text (lines (c.text (lines source))) =
      c.text (lines source) := by
  obtain ⟨pos, le, fits⟩ := number_bounds_of_mem_chunks h
  have length := length_excerpt pos le fits
  rw [lines_text h, Chunk.text_eq, Chunk.text_eq, Chunk.lastNumber_earlier]
  congr 1
  have begins : (c.earlier (c.header.number - 1)).header.number - 1 = 0 := by
    simp only [Chunk.earlier, Line.earlier]
    omega
  rw [excerpt, begins, List.drop_zero, List.take_of_length_le]
  omega

end

/-! ## Programs -/

/-- A chunk is a program if its first line names one and each of its statements is read. -/
theorem program_eq_ok_iff {ls : List (List Char)} {c : Chunk} {p : Program} :
    c.program ls = .ok p ↔ c.header.isHeader ∧
      List.Forall₂ (fun l i => Line.statement l = .ok i) c.statements p.instructions ∧
      p.name = String.ofList c.header.name ∧ p.sourceText = some (String.ofList (c.text ls)) :=
  assemble_eq_ok_iff

/-- A text is read as the programs of its chunks, if it has any line at all. -/
theorem readAll_eq_ok_iff {source : String} {ps : List Program} :
    readAll source = .ok ps ↔ significant source.toList ≠ [] ∧
      List.Forall₂ (fun c p => c.program (lines source.toList) = .ok p)
        (chunks (significant source.toList)) ps := by
  rw [readAll]
  split
  · rename_i none
    simp [none]
  · rename_i some
    rw [mapM_eq_ok_iff, and_iff_right some]

/-- The text of a program in a script is read as that program, and as a script of it alone. -/
theorem read_text_of_program {source : List Char} {c : Chunk} (h : c ∈ chunks (significant source))
    {p : Program} (read : c.program (lines source) = .ok p) :
    Script.read (String.ofList (c.text (lines source))) = .ok p ∧
      readAll (String.ofList (c.text (lines source))) = .ok [p] := by
  obtain ⟨isHeader, statements, named, kept⟩ := program_eq_ok_iff.1 read
  have closed := closed_of_mem_chunks h
  let own := c.earlier (c.header.number - 1)
  have found : significant (c.text (lines source)) = own.lines := significant_text h
  have statements' : List.Forall₂ (fun l i => Line.statement l = .ok i) own.statements
      p.instructions :=
    List.forall₂_map_left_iff.2 (statements.imp fun l i => statement_earlier_eq_ok_iff.2)
  have ends : Ends (own.last?.toList.map Line.text) := (closed.earlier _).ends_text
  constructor
  · rw [read_eq_ok_iff, String.toList_ofList, found]
    refine ⟨own.header, own.statements ++ own.last?.toList, rfl, isHeader, ?_, named, kept⟩
    -- The reader of one program stops in front of the line that ends it, if there is one.
    rw [takeWhile_of_asks (forall₂_asks_iff.1 statements') ends]
    exact statements'
  · rw [readAll_eq_ok_iff, String.toList_ofList, found, chunks_lines (closed.earlier _)]
    refine ⟨List.cons_ne_nil _ _,
      .cons (program_eq_ok_iff.2 ⟨isHeader, statements', named, ?_⟩) .nil⟩
    rw [text_earlier_lines_text h]
    exact kept

/-! ## The first program -/

/-- The first chunk begins with the first line, and holds the statements behind it. -/
theorem exists_chunks_cons (header : Line) (rest : List Line) :
    ∃ c more, chunks (header :: rest) = c :: more ∧ c.header = header ∧
      c.statements = rest.takeWhile Line.isInner := by
  rw [chunks]
  split
  · exact ⟨_, _, rfl, rfl, rfl⟩
  · split
    · exact ⟨_, _, rfl, rfl, rfl⟩
    · exact ⟨_, _, rfl, rfl, rfl⟩

/-- A statement neither begins a program nor ends it. -/
theorem isInner_of_statement {l : Line} {i : Instruction} (h : l.statement = .ok i) :
    l.isInner := by
  have asks := statement_iff_asks.1 h
  have notReturn : l.isReturn = false := by simpa [Line.isReturn] using asks.ne_return
  have notHeader : l.isHeader = false := by
    rw [Line.isHeader]
    generalize l.text = text at asks
    cases asks <;> rfl
  simp [Line.isInner, notReturn, notHeader]

/-- Where everything up to the end of a program is a statement, the next program does not begin
    before that end. -/
theorem takeWhile_isInner {rest : List Line} {block : List Instruction}
    (h : List.Forall₂ (fun l i => Line.statement l = .ok i)
      (rest.takeWhile fun l => !l.isReturn) block) :
    rest.takeWhile Line.isInner = rest.takeWhile fun l => !l.isReturn := by
  have inner : ∀ l ∈ rest.takeWhile (fun l => !l.isReturn), l.isInner :=
    ((List.forall₂_and_left _ block).1
      (h.imp fun _ _ statement => ⟨isInner_of_statement statement, statement⟩)).1
  have stop : (rest.dropWhile fun l => !l.isReturn).takeWhile Line.isInner = [] := by
    have first := List.head?_dropWhile_not (fun l => !Line.isReturn l) rest
    cases left : rest.dropWhile fun l => !l.isReturn with
    | nil => rfl
    | cons l more =>
      have isReturn : l.isReturn := by simpa [left] using first
      rw [List.takeWhile_cons_of_neg (by simp [isInner_of_isReturn isReturn])]
  calc rest.takeWhile Line.isInner
      = ((rest.takeWhile fun l => !l.isReturn) ++
          rest.dropWhile fun l => !l.isReturn).takeWhile Line.isInner := by
        rw [List.takeWhile_append_dropWhile]
    _ = rest.takeWhile fun l => !l.isReturn := by
        rw [List.takeWhile_append_of_pos inner, stop, List.append_nil]

/-- A text that is read as one program and as a script has that program first in the script. -/
theorem head?_of_read {source : String} {p : Program} {ps : List Program}
    (one : Script.read source = .ok p) (all : readAll source = .ok ps) :
    ∃ first, ps.head? = some first ∧ p.name = first.name ∧
      p.instructions = first.instructions := by
  obtain ⟨header, rest, lines, -, statements, named, -⟩ := read_eq_ok_iff.1 one
  obtain ⟨-, programs⟩ := readAll_eq_ok_iff.1 all
  obtain ⟨c, more, cut, rfl, block⟩ := exists_chunks_cons header rest
  rw [lines, cut] at programs
  obtain ⟨first, others, read, -, rfl⟩ := List.forall₂_cons_left_iff.1 programs
  obtain ⟨-, statements', named', -⟩ := program_eq_ok_iff.1 read
  rw [block, takeWhile_isInner statements, ← mapM_eq_ok_iff] at statements'
  exact ⟨first, rfl, named.trans named'.symm,
    Except.ok.inj ((mapM_eq_ok_iff.2 statements).symm.trans statements')⟩

theorem exists_mem_of_forall₂ {α β : Type} {R : α → β → Prop} {as : List α} {bs : List β}
    (h : List.Forall₂ R as bs) {b : β} (mem : b ∈ bs) : ∃ a ∈ as, R a b := by
  induction h with
  | nil => cases mem
  | cons hab _ ih =>
    rcases List.mem_cons.1 mem with rfl | mem
    · exact ⟨_, List.mem_cons_self, hab⟩
    · obtain ⟨a, found, ha⟩ := ih mem
      exact ⟨a, List.mem_cons_of_mem _ found, ha⟩

/-- The text of each program of a script is read as that program, by itself and as a script of
    one program. What the whole text is read as by itself, if anything, is the first program. -/
theorem read_sourceText (source : String) (ps : List Program) (h : readAll source = .ok ps) :
    (∀ p ∈ ps, ∃ text, p.sourceText = some text ∧ Script.read text = .ok p ∧
      readAll text = .ok [p]) ∧
    ∀ p, Script.read source = .ok p → ∃ first, ps.head? = some first ∧ p.name = first.name ∧
      p.instructions = first.instructions := by
  refine ⟨fun p mem => ?_, fun p one => head?_of_read one h⟩
  obtain ⟨c, found, read⟩ := exists_mem_of_forall₂ (readAll_eq_ok_iff.1 h).2 mem
  exact ⟨_, (program_eq_ok_iff.1 read).2.2.2, read_text_of_program found read⟩

/-- Three programs that end in three ways, with blank lines between and inside them. -/
theorem read_sourceText_three_programs :
    let source := "\r\ndef one\r\n\r\n  set speed 2 \r\nreturn\n\ndef two\u2028" ++
      "if a hits b 1 times\n \ndef three\n\n"
    ∃ ps, readAll source = .ok ps ∧
      (∀ p ∈ ps, ∃ text, p.sourceText = some text ∧ Script.read text = .ok p ∧
        readAll text = .ok [p]) ∧
      ∃ p first, Script.read source = .ok p ∧ ps.head? = some first ∧ p.name = first.name ∧
        p.instructions = first.instructions := by
  intro source
  have unfaulted : fault? (readAll source) = none := by decide +kernel
  have unfaulted' : fault? (Script.read source) = none := by decide +kernel
  obtain ⟨ps, all⟩ := fault?_eq_none_iff.1 unfaulted
  obtain ⟨p, one⟩ := fault?_eq_none_iff.1 unfaulted'
  obtain ⟨parts, head⟩ := read_sourceText source ps all
  obtain ⟨first, found, same⟩ := head p one
  exact ⟨ps, all, parts, p, first, one, found, same⟩

end Carom.Script
