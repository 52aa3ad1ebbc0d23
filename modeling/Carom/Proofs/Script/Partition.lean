import Mathlib.Logic.ExistsUnique
import Carom.Proofs.Script.Concatenation

/-!
# The part of a text that holds a program

The programs of a script stand one behind the other, each in lines of its own: from the line that
names it to the line that ends it, or to the last line before the next one that is not blank
(`Spans`). No two of these parts meet, and no line is left out but blank ones
(`readAll_partition`). So there are as many programs as lines that begin one.
-/

namespace Carom.Script

open Text

/-- The lines of a text from one number to another hold a program. -/
structure Spans (ls : List (List Char)) (first last : Nat) (p : Program) : Prop where
  bounds : 1 ≤ first ∧ first ≤ last ∧ last ≤ ls.length
  /-- Put together, they are the text of the program. -/
  text : p.sourceText = some (String.ofList (join (excerpt first last ls)))
  /-- The first one begins the program and names it. -/
  header : ∃ text, HasLine ls ⟨first, text⟩ ∧ Names text p.name.toList
  /-- No other one begins a program. -/
  inner : ∀ l, HasLine ls l → first < l.number → l.number ≤ last → ¬l.isHeader
  /-- None but the last one ends a program. -/
  ends : ∀ l, HasLine ls l → first ≤ l.number → l.number ≤ last → l.isReturn → l.number = last
  /-- Each of the others that is not blank is one instruction. -/
  statements : List.Forall₂ Asks
    ((trimmedTexts (excerpt (first + 1) last ls)).filter fun text => text ≠ "return".toList)
    p.instructions

/-- An excerpt begins with its first line. -/
theorem excerpt_eq_cons {ls : List (List Char)} {first last : Nat} {raw : List Char}
    (pos : 1 ≤ first) (le : first ≤ last) (found : ls[first - 1]? = some raw) :
    excerpt first last ls = raw :: excerpt (first + 1) last ls := by
  obtain ⟨fits, rfl⟩ := List.getElem?_eq_some_iff.1 found
  have taken : first - 1 < (ls.take last).length := by
    rw [List.length_take]
    omega
  have next : first - 1 + 1 = first + 1 - 1 := by omega
  rw [excerpt, excerpt, List.drop_eq_getElem_cons taken, List.getElem_take, next]

theorem ne_nil_of_isHeader {l : Line} (h : l.isHeader) : l.text ≠ [] := by
  intro empty
  rw [Line.isHeader, empty] at h
  exact absurd h (by decide)

theorem ne_nil_of_isReturn {l : Line} (h : l.isReturn) : l.text ≠ [] := by
  intro empty
  rw [Line.isReturn, empty] at h
  exact absurd h (by decide)

/-! ## Lines of a chunk -/

section

variable {c : Chunk} {l : Line}

/-- The line that begins a chunk is the only one that begins a program. -/
theorem Chunk.Closed.eq_header (h : c.Closed) (mem : l ∈ c.lines) (isHeader : l.isHeader) :
    l = c.header := by
  rcases Chunk.mem_lines_iff.1 mem with first | inner | last
  · exact first
  · exact absurd (h.inner l inner) (by simp [isInner_of_isHeader isHeader])
  · exact absurd (h.ends l last) (by simp [isReturn_of_isHeader isHeader])

/-- The line that ends a program is the last one of a chunk. -/
theorem Chunk.Closed.number_eq (h : c.Closed) (header : c.header.isHeader) (mem : l ∈ c.lines)
    (isReturn : l.isReturn) : l.number = c.lastNumber := by
  rcases Chunk.mem_lines_iff.1 mem with rfl | inner | last
  · exact absurd isReturn (by simp [isReturn_of_isHeader header])
  · exact absurd (h.inner l inner) (by simp [isInner_of_isReturn isReturn])
  · rw [Chunk.lastNumber, last]

/-- A chunk has one line that begins a program. -/
theorem Chunk.Closed.countP_isHeader (h : c.Closed) (header : c.header.isHeader) :
    c.lines.countP Line.isHeader = 1 := by
  have statements : c.statements.countP Line.isHeader = 0 := List.countP_eq_zero.2 fun l mem => by
    have := h.inner l mem
    simp_all [Line.isInner]
  have last : c.last?.toList.countP Line.isHeader = 0 := List.countP_eq_zero.2 fun l mem => by
    simp [isHeader_of_isReturn (h.ends l (Option.mem_toList.1 mem))]
  rw [Chunk.lines, List.countP_append, List.countP_cons_of_pos header, statements, last]

/-- The numbers of the first and the last line of a chunk. -/
def Chunk.range (c : Chunk) : Nat × Nat := (c.header.number, c.lastNumber)

end

section

variable {source : List Char} {c : Chunk} (h : c ∈ chunks (significant source))

include h

/-- The lines of a chunk are lines of the text. -/
theorem mem_significant_of_mem_lines {l : Line} (mem : l ∈ c.lines) : l ∈ significant source := by
  rw [← flatMap_chunks (significant source)]
  exact List.mem_flatMap.2 ⟨c, h, mem⟩

/-- A line is in a chunk iff its number lies between those of the first and the last line of the
    chunk. -/
theorem mem_lines_iff {l : Line} (found : l ∈ significant source) :
    l ∈ c.lines ↔ c.range.1 ≤ l.number ∧ l.number ≤ c.range.2 := by
  obtain ⟨before, after, eq⟩ := exists_significant_eq_append h
  obtain ⟨last, isLast, number⟩ := c.exists_getLast?_lines
  have between := filter_number_between eq rfl isLast
  rw [← between, List.mem_filter, Chunk.range, number, Bool.and_eq_true, decide_eq_true_iff,
    decide_eq_true_iff]
  exact and_iff_right found

/-- The statements of a chunk are the lines behind its first one, without the one that ends the
    program. -/
theorem filter_trimmedTexts_excerpt :
    ((trimmedTexts (excerpt (c.header.number + 1) c.lastNumber (lines source))).filter fun text =>
      text ≠ "return".toList) = c.statements.map Line.text := by
  obtain ⟨pos, le, -⟩ := number_bounds_of_mem_chunks h
  have closed := closed_of_mem_chunks h
  have first : c.header ∈ significant source :=
    mem_significant_of_mem_lines h (Chunk.mem_lines_iff.2 (.inl rfl))
  obtain ⟨⟨-, raw, there, text⟩, ne⟩ := mem_significantFrom_iff.1 first
  -- The first line of the part begins the program, so it is the first one that is not blank.
  have texts := map_text_significantFrom c.header.number
    (excerpt c.header.number c.lastNumber (lines source))
  rw [significantFrom_excerpt_of_mem_chunks h, excerpt_eq_cons pos le there,
    trimmedTexts_cons_of_ne_nil (text ▸ ne)] at texts
  have rest : (c.statements ++ c.last?.toList).map Line.text =
      trimmedTexts (excerpt (c.header.number + 1) c.lastNumber (lines source)) :=
    (List.cons.inj texts).2
  have goOn : ∀ t ∈ c.statements.map Line.text, decide (t ≠ "return".toList) = true := by
    intro t mem
    obtain ⟨l, statement, rfl⟩ := List.mem_map.1 mem
    have notReturn := isReturn_of_isInner (closed.inner l statement)
    exact decide_eq_true (by simpa [Line.isReturn] using notReturn)
  have stop : ∀ t ∈ c.last?.toList.map Line.text, ¬decide (t ≠ "return".toList) = true := by
    intro t mem
    obtain ⟨l, isLast, rfl⟩ := List.mem_map.1 mem
    have isReturn : l.isReturn := closed.ends l (Option.mem_toList.1 isLast)
    exact fun different => of_decide_eq_true different (beq_iff_eq.1 isReturn)
  rw [← rest, List.map_append, List.filter_append, List.filter_eq_self.2 goOn,
    List.filter_eq_nil_iff.2 stop, List.append_nil]

/-- The lines that a chunk covers hold the program that it is read as. -/
theorem spans_of_program {p : Program} (read : c.program (lines source) = .ok p) :
    Spans (lines source) c.range.1 c.range.2 p := by
  obtain ⟨header, statements, named, kept⟩ := program_eq_ok_iff.1 read
  have closed := closed_of_mem_chunks h
  have first : c.header ∈ significant source :=
    mem_significant_of_mem_lines h (Chunk.mem_lines_iff.2 (.inl rfl))
  have names : Names c.header.text p.name.toList := by
    rw [names_iff (trimmed_of_mem_significant first), named, String.toList_ofList]
    exact ⟨header, rfl⟩
  -- A line whose number is in the range is one of the chunk, so the form of the chunk tells what it
  -- can be.
  have own {l : Line} (line : HasLine (lines source) l) (ne : l.text ≠ [])
      (low : c.range.1 ≤ l.number) (high : l.number ≤ c.range.2) : l ∈ c.lines :=
    (mem_lines_iff h (mem_significantFrom_iff.2 ⟨line, ne⟩)).2 ⟨low, high⟩
  have line : HasLine (lines source) c.header := (mem_significantFrom_iff.1 first).1
  refine ⟨number_bounds_of_mem_chunks h, kept, ⟨c.header.text, line, names⟩,
    fun l line low high isHeader => ?_, fun l line low high isReturn => ?_, ?_⟩
  · have := closed.eq_header
      (own line (ne_nil_of_isHeader isHeader) (Nat.le_of_lt low) high) isHeader
    rw [this] at low
    exact Nat.lt_irrefl _ low
  · exact closed.number_eq header (own line (ne_nil_of_isReturn isReturn) low high) isReturn
  · rw [Chunk.range, filter_trimmedTexts_excerpt h, ← forall₂_asks_iff]
    exact statements

end

/-! ## All programs of a text -/

section

variable (source : List Char)

/-- No two chunks meet, and they are in order. -/
theorem pairwise_range :
    ((chunks (significant source)).map Chunk.range).Pairwise fun r s => r.2 < s.1 := by
  have sorted := pairwise_number 1 (lines source)
  rw [← significant, ← flatMap_chunks (significant source), List.pairwise_flatMap] at sorted
  rw [List.pairwise_map]
  refine sorted.2.imp fun {c d} apart => ?_
  obtain ⟨last, isLast, number⟩ := c.exists_getLast?_lines
  rw [Chunk.range, number]
  exact apart last (List.mem_of_getLast? isLast) d.header
    (List.mem_append_left _ List.mem_cons_self)

/-- Each line that is not blank is in one chunk. -/
theorem existsUnique_range {l : Line} (found : l ∈ significant source) :
    ∃! r, r ∈ (chunks (significant source)).map Chunk.range ∧ r.1 ≤ l.number ∧ l.number ≤ r.2 := by
  have mem := found
  rw [← flatMap_chunks (significant source)] at mem
  obtain ⟨c, ofText, inside⟩ := List.mem_flatMap.1 mem
  have own := (mem_lines_iff ofText found).1 inside
  refine ⟨c.range, ⟨List.mem_map_of_mem ofText, own⟩, fun r ⟨another, other⟩ => ?_⟩
  -- Ranges that are apart have no number in common, so two that have this one are the same.
  let Same (r s : Nat × Nat) : Prop :=
    r.1 ≤ l.number ∧ l.number ≤ r.2 → s.1 ≤ l.number ∧ l.number ≤ s.2 → r = s
  have apart : ((chunks (significant source)).map Chunk.range).Pairwise fun r s =>
      Same r s ∧ Same s r :=
    (pairwise_range source).imp fun before =>
      ⟨fun inR inS => absurd inS.1 (by omega), fun inS inR => absurd inS.1 (by omega)⟩
  exact List.Pairwise.forall_of_forall_of_flip (fun _ _ _ _ => rfl) (apart.imp And.left)
    (apart.imp And.right) another (List.mem_map_of_mem ofText) other own

/-- The lines that begin a program are counted alike in the text and among the lines that count. -/
theorem countP_startsWith :
    (lines source).countP (fun raw => startsWith "def" (trim isBlank raw)) =
      (significant source).countP Line.isHeader := by
  have blank (t : List Char) : (startsWith "def" t && !t.isEmpty) = startsWith "def" t := by
    cases t with
    | nil => rfl
    | cons c t => simp
  have texts := congrArg (List.countP (startsWith "def")) (map_text_significant source)
  rw [List.countP_map, significantTexts, trimmedTexts, List.countP_filter, List.countP_map] at texts
  simp only [blank] at texts
  exact texts.symm

end

/-- The programs of a script stand in parts of the text that do not meet, one behind the other.
    All lines but blank ones are in these parts, each in one of them. -/
theorem readAll_partition (source : String) (ps : List Program) (h : readAll source = .ok ps) :
    (∃ ranges : List (Nat × Nat),
      List.Forall₂ (fun r p => Spans (lines source.toList) r.1 r.2 p) ranges ps ∧
      ranges.Pairwise (fun r s => r.2 < s.1) ∧
      ∀ l, HasLine (lines source.toList) l → l.text ≠ [] →
        ∃! r, r ∈ ranges ∧ r.1 ≤ l.number ∧ l.number ≤ r.2) ∧
    ps.length = (lines source.toList).countP fun raw => startsWith "def" (trim isBlank raw) := by
  have programs := (readAll_eq_ok_iff.1 h).2
  constructor
  · refine ⟨(chunks (significant source.toList)).map Chunk.range, ?_, pairwise_range _,
      fun l line ne => existsUnique_range _ (mem_significantFrom_iff.2 ⟨line, ne⟩)⟩
    rw [List.forall₂_map_left_iff]
    exact ((List.forall₂_and_left _ _).2 ⟨fun _ => id, programs⟩).imp fun _ _ both =>
      spans_of_program both.1 both.2
  · have one : ∀ c ∈ chunks (significant source.toList), c.lines.countP Line.isHeader = 1 := by
      intro c mem
      obtain ⟨p, -, read⟩ := exists_mem_of_forall₂ programs.flip mem
      exact (closed_of_mem_chunks mem).countP_isHeader (program_eq_ok_iff.1 read).1
    -- Each program has one chunk, and each chunk one line that begins a program.
    calc ps.length
        = (chunks (significant source.toList)).length := programs.length_eq.symm
      _ = ((chunks (significant source.toList)).map fun c => c.lines.countP Line.isHeader).sum := by
          rw [List.map_congr_left one]
          simp
      _ = (significant source.toList).countP Line.isHeader := by
          rw [← Function.comp_def, ← List.countP_flatMap, flatMap_chunks]
      _ = _ := (countP_startsWith _).symm

/-- Three programs with blank lines between and inside them, which end with the line that ends a
    program, with the next one and with the text. -/
theorem readAll_partition_three_programs :
    let source := "\r\n def one\n\n  set speed 2 \nreturn\n\ndef  two\u2028" ++
      "if a hits b 1 times\n \ndef three\n\n"
    ∃ ps, readAll source = .ok ps ∧ ps.length = 3 ∧
      ∃ ranges : List (Nat × Nat),
        List.Forall₂ (fun r p => Spans (lines source.toList) r.1 r.2 p) ranges ps ∧
        ∃! r, r ∈ ranges ∧ r.1 ≤ 8 ∧ 8 ≤ r.2 := by
  intro source
  have unfaulted : fault? (readAll source) = none := by decide +kernel
  obtain ⟨ps, all⟩ := fault?_eq_none_iff.1 unfaulted
  obtain ⟨⟨ranges, spans, -, covers⟩, count⟩ := readAll_partition source ps all
  have eighth : (⟨8, "if a hits b 1 times".toList⟩ : Line) ∈ significant source.toList := by
    decide +kernel
  obtain ⟨line, ne⟩ := mem_significantFrom_iff.1 eighth
  exact ⟨ps, all, count.trans (by decide +kernel), ranges, spans, covers _ line ne⟩

end Carom.Script
