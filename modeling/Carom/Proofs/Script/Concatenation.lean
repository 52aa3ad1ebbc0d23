import Mathlib.Data.List.TakeWhile
import Carom.Proofs.Script.Excerpt

/-!
# Scripts one after the other

Two scripts with a line feed between them are a script of the programs of both, in order, if a
program ends or begins where they meet (`readAll_append`). Whatever ends the first text, the lines
of the second one come behind all lines of the first, with numbers that are greater by how many
these are; so an error of the second text is found where it was, that many lines further down.
-/

namespace Carom.Script

open Text

/-! ## Chunks -/

/-- Lines and the chunks that they are cut into. -/
inductive Cut : List Line → List Chunk → Prop
  | nil : Cut [] []
  | last {header : Line} {statements : List Line} : (∀ l ∈ statements, l.isInner) →
      Cut (header :: statements) [⟨header, statements, none⟩]
  | header {header next : Line} {statements more : List Line} {cs : List Chunk} :
      (∀ l ∈ statements, l.isInner) → next.isHeader → Cut (next :: more) cs →
      Cut (header :: (statements ++ next :: more)) (⟨header, statements, none⟩ :: cs)
  | ended {header next : Line} {statements more : List Line} {cs : List Chunk} :
      (∀ l ∈ statements, l.isInner) → next.isReturn → Cut more cs →
      Cut (header :: (statements ++ next :: more)) (⟨header, statements, some next⟩ :: cs)

/-- Lines are cut in one way only. -/
theorem Cut.chunks_eq {ls : List Line} {cs : List Chunk} (h : Cut ls cs) : chunks ls = cs := by
  have stop {statements : List Line} (inner : ∀ l ∈ statements, l.isInner) {next : Line}
      (stops : next.isInner = false) (more : List Line) :
      (statements ++ next :: more).takeWhile Line.isInner = statements ∧
        (statements ++ next :: more).dropWhile Line.isInner = next :: more := by
    rw [List.takeWhile_append_of_pos inner, List.dropWhile_append_of_pos inner,
      List.takeWhile_cons_of_neg (by simp [stops]), List.dropWhile_cons_of_neg (by simp [stops])]
    simp
  -- The statements end where the next line is none, so each case of the cut is the case that the
  -- loop over the lines is in.
  induction h with
  | nil => rw [chunks]
  | last inner =>
    have taken := List.takeWhile_eq_self_iff.2 inner
    have left := List.dropWhile_eq_nil_iff.2 inner
    rw [chunks]
    simp only [taken]
    split
    · rfl
    · rename_i some
      rw [left] at some
      cases some
  | @header _ next _ more _ inner isHeader _ ih =>
    obtain ⟨taken, left⟩ := stop inner (isInner_of_isHeader isHeader) more
    rw [chunks]
    simp only [taken]
    split
    · rename_i none
      rw [left] at none
      cases none
    · rename_i some
      rw [left] at some
      cases some
      rw [if_pos isHeader, ih]
  | @ended _ next _ more _ inner isReturn _ ih =>
    obtain ⟨taken, left⟩ := stop inner (isInner_of_isReturn isReturn) more
    rw [chunks]
    simp only [taken]
    split
    · rename_i none
      rw [left] at none
      cases none
    · rename_i some
      rw [left] at some
      cases some
      rw [if_neg (by simp [isHeader_of_isReturn isReturn]), ih]

/-- Cutting lines into chunks leaves each chunk with the lines of its program. -/
theorem cut_chunks (ls : List Line) : Cut ls (chunks ls) := by
  have inner (rest : List Line) : ∀ l ∈ rest.takeWhile Line.isInner, l.isInner :=
    List.all_eq_true.1 List.all_takeWhile
  have all (rest : List Line) := List.takeWhile_append_dropWhile (p := Line.isInner) (l := rest)
  fun_induction chunks ls with
  | case1 => exact .nil
  | case2 header rest statements none =>
    have whole : statements = rest := by
      simpa only [none, List.append_nil] using all rest
    rw [← whole]
    exact .last (inner rest)
  | case3 header rest statements next more found isHeader ih =>
    have whole : statements ++ next :: more = rest := by
      simpa only [found] using all rest
    rw [← whole]
    exact .header (inner rest) isHeader ih
  | case4 header rest statements next more found notHeader ih =>
    have whole : statements ++ next :: more = rest := by
      simpa only [found] using all rest
    rw [← whole]
    exact .ended (inner rest) (isReturn_of_dropWhile found notHeader) ih

/-- A program ends or begins where some lines go over into others. -/
def Seam (front back : List Line) : Prop :=
  (∀ l ∈ front.getLast?, l.isReturn) ∨ ∀ l ∈ back.head?, l.isHeader

/-- A seam is seen from the last line. -/
theorem Seam.of_append (before : List Line) {front back : List Line}
    (h : Seam (before ++ front) back) : Seam front back :=
  h.imp_left fun ends l mem => ends l (List.mem_getLast?_append_of_mem_getLast? mem)

/-- At a seam the cut goes through, unless a line that ends a program stands for its beginning. -/
theorem Cut.append {front back : List Line} {cs ds : List Chunk} (hc : Cut front cs)
    (begins : ∀ c ∈ cs, c.header.isHeader) (hd : Cut back ds) (seam : Seam front back) :
    Cut (front ++ back) (cs ++ ds) := by
  induction hc with
  | nil => exact hd
  | @last header statements inner =>
    have opens : ∀ l ∈ back.head?, l.isHeader := by
      refine seam.resolve_left fun ends => ?_
      have isHeader : header.isHeader := begins _ List.mem_cons_self
      -- The last line in front is the header or a statement, and neither of them ends a program.
      have last := List.getLast?_eq_some_getLast (List.cons_ne_nil header statements)
      have isReturn := ends _ last
      rcases List.mem_cons.1 (List.getLast_mem (List.cons_ne_nil header statements)) with eq | mem
      · rw [eq, isReturn_of_isHeader isHeader] at isReturn
        cases isReturn
      · rw [isReturn_of_isInner (inner _ mem)] at isReturn
        cases isReturn
    cases back with
    | nil =>
      cases hd
      simpa using Cut.last inner
    | cons next more => exact .header inner (opens next rfl) hd
  | @header header next statements more cs inner isHeader _ ih =>
    have seam' : Seam (next :: more) back := seam.of_append (header :: statements)
    have rest := ih (fun c mem => begins c (List.mem_cons_of_mem _ mem)) seam'
    simpa using Cut.header inner isHeader rest
  | @ended header next statements more cs inner isReturn _ ih =>
    have seam' : Seam more back := by
      refine Seam.of_append (header :: (statements ++ [next])) ?_
      simpa using seam
    have rest := ih (fun c mem => begins c (List.mem_cons_of_mem _ mem)) seam'
    simpa using Cut.ended inner isReturn rest

/-! ## Lines further down -/

/-- The same error, with the line `k` lines further down. -/
def SyntaxError.later (k : Nat) : SyntaxError → SyntaxError
  | .empty => .empty
  | .at l c => .at (l.later k) c

/-- The same error, with the line, if there is one, `k` lines further down. -/
def ReadError.later (k : Nat) : ReadError → ReadError
  | .malformed e => .malformed (e.later k)
  | .countTooLong digits => .countTooLong digits
  | .countTooLarge => .countTooLarge

/-- A chunk `k` lines further down. -/
def Chunk.later (k : Nat) (c : Chunk) : Chunk where
  header := c.header.later k
  statements := c.statements.map (Line.later k)
  last? := c.last?.map (Line.later k)

/-- Lines further down are cut in the same places. -/
theorem Cut.later (k : Nat) {ls : List Line} {cs : List Chunk} (h : Cut ls cs) :
    Cut (ls.map (Line.later k)) (cs.map (Chunk.later k)) := by
  have moved {statements : List Line} (inner : ∀ l ∈ statements, l.isInner) :
      ∀ l ∈ statements.map (Line.later k), l.isInner := by
    intro l mem
    obtain ⟨m, own, rfl⟩ := List.mem_map.1 mem
    exact inner m own
  induction h with
  | nil => exact .nil
  | last inner => exact .last (moved inner)
  | header inner isHeader _ ih =>
    simp only [List.map_cons, List.map_append] at ih ⊢
    exact .header (moved inner) isHeader ih
  | ended inner isReturn _ ih =>
    simp only [List.map_cons, List.map_append] at ih ⊢
    exact .ended (moved inner) isReturn ih

/-- The first line of a program reads the same further down, and so does its fault. -/
theorem header_later (k : Nat) (l : Line) :
    (l.later k).header = l.header.mapError (ReadError.later k) := by
  have same : (l.later k).isHeader = l.isHeader := rfl
  rw [Line.header, Line.header, same]
  cases l.isHeader <;> rfl

/-- So does a statement; an oversized count has no line. -/
theorem statement_later (k : Nat) (l : Line) :
    (l.later k).statement = l.statement.mapError (ReadError.later k) := by
  have count (digits : List Nat) : (readCount digits).map bounceFrom =
      ((readCount digits).map bounceFrom).mapError (ReadError.later k) := by
    rw [readCount]
    split
    · rfl
    · split <;> rfl
  have text : (l.later k).text = l.text := rfl
  rw [Line.statement, Line.statement, text]
  cases startsWith "if" l.text with
  | true =>
    cases readCondition (words (after "if" l.text)) with
    | ok digits => exact count digits
    | error c => rfl
  | false =>
    cases startsWith "set" l.text with
    | true => cases readSetting (words l.text) <;> rfl
    | false => rfl

/-- Only what is done for the members of a list matters. -/
theorem mapM_congr {α β : Type} {f g : α → Except ReadError β} {as : List α}
    (h : ∀ a ∈ as, f a = g a) : as.mapM f = as.mapM g := by
  induction as with
  | nil => rfl
  | cons a as ih =>
    rw [List.mapM_cons, List.mapM_cons, h a List.mem_cons_self,
      ih fun b mem => h b (List.mem_cons_of_mem a mem)]

/-- Reading one after the other fails with what the first error is made to be. -/
theorem mapM_mapError {α β : Type} {f : α → Except ReadError β} {g : ReadError → ReadError}
    (as : List α) : as.mapM (fun a => (f a).mapError g) = (as.mapM f).mapError g := by
  induction as with
  | nil => rfl
  | cons a as ih =>
    rw [List.mapM_cons, List.mapM_cons, ih]
    cases f a with
    | error e => rfl
    | ok b => cases as.mapM f <;> rfl

/-- The last line of a chunk moves with the others. -/
theorem Chunk.lastNumber_later (k : Nat) (c : Chunk) :
    (c.later k).lastNumber = c.lastNumber + k := by
  obtain ⟨header, statements, last?⟩ := c
  cases last? with
  | some l => rfl
  | none => cases h : statements.getLast? <;> simp [Chunk.lastNumber, Chunk.later, h, Line.later]

/-- With lines in front, the lines of a chunk further down are those that it had. -/
theorem text_later {c : Chunk} (pos : 1 ≤ c.header.number) (before ls : List (List Char)) :
    (c.later before.length).text (before ++ ls) = c.text ls := by
  have begins : (c.later before.length).header.number - 1 =
      before.length + (c.header.number - 1) := by
    simp only [Chunk.later, Line.later]
    omega
  rw [Chunk.text, Chunk.text, Chunk.lastNumber_later, begins, Nat.add_comm c.lastNumber,
    List.take_length_add_append, List.drop_length_add_append]

/-- With lines in front, a chunk further down is read as it was, but for the lines in its errors. -/
theorem program_later {c : Chunk} (pos : 1 ≤ c.header.number) (before ls : List (List Char)) :
    (c.later before.length).program (before ++ ls) =
      (c.program ls).mapError (ReadError.later before.length) := by
  have header : (c.later before.length).header = c.header.later before.length := rfl
  have statements : (c.later before.length).statements.mapM Line.statement =
      (c.statements.mapM Line.statement).mapError (ReadError.later before.length) := by
    rw [Chunk.later, List.mapM_map, ← mapM_mapError]
    exact congrArg (List.mapM · c.statements) (funext (statement_later before.length))
  rw [Chunk.program, Chunk.program, text_later pos, statements, header, header_later]
  cases c.header.header with
  | error e => rfl
  | ok name => cases c.statements.mapM Line.statement <;> rfl

/-- Lines behind a chunk do not matter. -/
theorem program_append {ls : List (List Char)} {c : Chunk} (fits : c.lastNumber ≤ ls.length)
    (more : List (List Char)) : c.program (ls ++ more) = c.program ls := by
  rw [Chunk.program, Chunk.program, Chunk.text, Chunk.text, List.take_append_of_le_length fits]

/-! ## Two texts -/

/-- The lines of two texts, the second one with the numbers that it has behind the first. -/
theorem significant_append_feed (a b : List Char) : significant (a ++ '\n' :: b) =
    significant a ++ (significant b).map (Line.later (lines (a ++ ['\n'])).length) := by
  obtain ⟨pad, blank, front⟩ := exists_lines_feed a
  have own : significantFrom 1 (lines (a ++ ['\n'])) = significant a := by
    rw [front, significantFrom_append, significantFrom_of_empty blank, List.append_nil, significant]
  rw [significant, lines_append_feed, significantFrom_append, own, significantFrom_add]
  rfl

/-- At a seam two texts are cut as each of them is. -/
theorem chunks_append_feed {a b : List Char}
    (begins : ∀ c ∈ chunks (significant a), c.header.isHeader)
    (seam : Seam (significant a) (significant b)) : chunks (significant (a ++ '\n' :: b)) =
      chunks (significant a) ++
        (chunks (significant b)).map (Chunk.later (lines (a ++ ['\n'])).length) := by
  have seam' : Seam (significant a)
      ((significant b).map (Line.later (lines (a ++ ['\n'])).length)) := by
    refine seam.imp_right fun opens l mem => ?_
    rw [List.head?_map] at mem
    obtain ⟨m, first, rfl⟩ := Option.map_eq_some_iff.1 mem
    exact opens m first
  rw [significant_append_feed]
  exact ((cut_chunks _).append begins ((cut_chunks _).later _) seam').chunks_eq

theorem readAll_of_ne_nil {source : String} (h : significant source.toList ≠ []) :
    readAll source =
      (chunks (significant source.toList)).mapM (Chunk.program (lines source.toList)) := by
  rw [readAll]
  split
  · contradiction
  · rfl

/-- Behind the programs of a text that ends at a seam come those of the next text, or its
    error. -/
theorem readAll_append_feed {a b : String} {ps : List Program} (accepted : readAll a = .ok ps)
    (more : significant b.toList ≠ [])
    (seam : Seam (significant a.toList) (significant b.toList)) :
    readAll (a ++ "\n" ++ b) =
      ((readAll b).mapError (ReadError.later (lines (a ++ "\n").toList).length)).map (ps ++ ·) := by
  obtain ⟨some, programs⟩ := readAll_eq_ok_iff.1 accepted
  have both : (a ++ "\n" ++ b).toList = a.toList ++ '\n' :: b.toList := by simp
  have front : (a ++ "\n").toList = a.toList ++ ['\n'] := by simp
  obtain ⟨pad, -, lines_front⟩ := exists_lines_feed a.toList
  have begins : ∀ c ∈ chunks (significant a.toList), c.header.isHeader := fun c mem => by
    obtain ⟨p, -, read⟩ := exists_mem_of_forall₂ (programs.flip) mem
    exact (program_eq_ok_iff.1 read).1
  -- The programs in front see their own lines, whatever comes behind these.
  have first : (chunks (significant a.toList)).mapM
      (Chunk.program (lines (a.toList ++ '\n' :: b.toList))) = .ok ps := by
    rw [← accepted, readAll_of_ne_nil some, lines_append_feed, lines_front, List.append_assoc]
    exact mapM_congr fun c mem => program_append (number_bounds_of_mem_chunks mem).2.2 _
  -- Those behind are read from lines that have moved, and so their errors have.
  have second : ((chunks (significant b.toList)).map
      (Chunk.later (lines (a.toList ++ ['\n'])).length)).mapM
        (Chunk.program (lines (a.toList ++ '\n' :: b.toList))) =
      (readAll b).mapError (ReadError.later (lines (a.toList ++ ['\n'])).length) := by
    rw [readAll_of_ne_nil more, List.mapM_map, ← mapM_mapError, lines_append_feed]
    exact mapM_congr fun c mem => program_later (number_bounds_of_mem_chunks mem).1 _ _
  have ne : significant (a ++ "\n" ++ b).toList ≠ [] := by
    rw [both, significant_append_feed]
    simp [some]
  rw [readAll_of_ne_nil ne, both, front, chunks_append_feed begins seam, List.mapM_append, first,
    second]
  cases readAll b <;> rfl

/-- Behind a text that ends with the end of a program, or in front of one that begins with the
    beginning of a program, a line feed puts two texts together: if the first one is read, the
    programs of the second one come behind its programs, or the error of the second one is the
    error of both, in the same line, which stands as many lines further down as the first text
    has with the line feed. -/
theorem readAll_append (a b : String) (ps : List Program) (accepted : readAll a = .ok ps)
    (more : significant b.toList ≠ [])
    (seam : (∃ l, (significant a.toList).getLast? = some l ∧ l.isReturn) ∨
      ∃ l, (significant b.toList).head? = some l ∧ l.isHeader) :
    let down := (lines (a ++ "\n").toList).length
    (∀ qs, readAll b = .ok qs → readAll (a ++ "\n" ++ b) = .ok (ps ++ qs)) ∧
    (∀ l c, readAll b = .error (.malformed (.at l c)) →
      readAll (a ++ "\n" ++ b) = .error (.malformed (.at ⟨l.number + down, l.text⟩ c)) ∧
      ∃ said, (SyntaxError.at l c).message = said ++ " (line " ++ toString l.number ++ ")" ∧
        (SyntaxError.at ⟨l.number + down, l.text⟩ c).message =
          said ++ " (line " ++ toString (l.number + down) ++ ")") ∧
    ∀ e, readAll b = .error e → (∀ l c, e ≠ .malformed (.at l c)) →
      readAll (a ++ "\n" ++ b) = .error e := by
  intro down
  have seam' : Seam (significant a.toList) (significant b.toList) := by
    refine seam.imp ?_ ?_
    · rintro ⟨l, last, isReturn⟩ m mem
      obtain rfl := Option.some.inj (last.symm.trans mem)
      exact isReturn
    · rintro ⟨l, first, isHeader⟩ m mem
      obtain rfl := Option.some.inj (first.symm.trans mem)
      exact isHeader
  have both := readAll_append_feed accepted more seam'
  refine ⟨fun qs read => ?_, fun l c refused => ⟨?_, c.message l.text, rfl, rfl⟩,
    fun e refused plain => ?_⟩
  · rw [both, read]
    rfl
  · rw [both, refused]
    rfl
  · rw [both, refused]
    rcases e with (_ | ⟨l, c⟩) | digits | _
    · rfl
    · exact absurd rfl (plain l c)
    · rfl
    · rfl

/-- The line feed goes with the carriage return in front of it, so the third line of the second
    text is the fifth one of both. -/
theorem readAll_append_carriage_return :
    let a := "def one\r\nreturn\r"
    let b := "\n  def two\nset speed x"
    ∃ ps c, readAll a = .ok ps ∧ readAll b = .error (.malformed (.at ⟨3, "set speed x".toList⟩ c)) ∧
      readAll (a ++ "\n" ++ b) = .error (.malformed (.at ⟨5, "set speed x".toList⟩ c)) := by
  intro a b
  have unfaulted : fault? (readAll a) = none := by decide +kernel
  have faulted : fault? (readAll b) =
      some (.malformed (.at ⟨3, "set speed x".toList⟩ (.badNumber ['x']))) := by decide +kernel
  obtain ⟨ps, accepted⟩ := fault?_eq_none_iff.1 unfaulted
  have refused := fault?_eq_some_iff.1 faulted
  have ends : (significant a.toList).getLast? = some ⟨2, "return".toList⟩ := by decide +kernel
  have both := readAll_append a b ps accepted (by decide +kernel) (.inl ⟨_, ends, by decide⟩)
  have down : (lines (a ++ "\n").toList).length = 2 := by decide +kernel
  rw [down] at both
  exact ⟨ps, _, accepted, refused, (both.2.1 _ _ refused).1⟩

end Carom.Script
