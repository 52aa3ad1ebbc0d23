import Carom.Proofs.Script.Fault
import Carom.Proofs.Script.Numbering

/-!
# The line that an error points at

A reader of scripts goes through the lines in order, and the first line that is wrong settles the
error: no line before it is at fault, and no line behind it matters (`StopsAtFirst`). The lines
that are not blank tell their numbers, so all of this holds of the lines of the text as well
(`blames_of_stopsAtFirst`).

* `stopsAtFirst_firstFault?`, `stopsAtFirst_programFault?`: the two ways to go through the lines.
* `blames_of_malformed`: what an error of either reader tells of the text.
-/

namespace Carom.Script

open Text

/-! ## Going through the lines -/

/-- The first fault of the lines inside a program, up to the line that ends it. -/
def blockFault? : List Line → Option ReadError
  | [] => none
  | l :: ls => if l.isReturn then none else (fault? l.statement).or (blockFault? ls)

/-- The first fault of some lines up to the end of the first program. -/
def programFault? : List Line → Option ReadError
  | [] => none
  | first :: rest => (fault? first.header).or (blockFault? rest)

/-- To read the statements of a program is to go through its lines to the one that ends it. -/
theorem fault?_mapM_takeWhile (ls : List Line) :
    fault? ((ls.takeWhile fun l => !l.isReturn).mapM Line.statement) = blockFault? ls := by
  induction ls with
  | nil => rfl
  | cons l ls ih =>
    rw [blockFault?]
    cases isReturn : l.isReturn with
    | true =>
      rw [List.takeWhile_cons_of_neg (by simp [isReturn]), fault?_mapM_nil, if_pos rfl]
    | false =>
      rw [List.takeWhile_cons_of_pos (by simp [isReturn]), fault?_mapM_cons, ih,
        if_neg Bool.false_ne_true]

/-- Reading one program of a text fails with the first fault of its lines up to the end of that
    program, or for want of any line. -/
theorem fault?_read (source : String) : fault? (Script.read source) =
    if significant source.toList = [] then some (.malformed .empty)
    else programFault? (significant source.toList) := by
  rw [Script.read]
  split
  · rename_i none
    simp [none]
  · rename_i first rest lines
    rw [lines, if_neg (List.cons_ne_nil first rest), programFault?, ← fault?_mapM_takeWhile]
    cases first.header with
    | error e => rfl
    | ok name => cases (rest.takeWhile fun l => !l.isReturn).mapM Line.statement <;> rfl

/-! ## The first fault -/

/-- What is wrong with the syntax of a line is said of that line. -/
theorem exists_cause_of_statement {l : Line} {e : SyntaxError}
    (h : fault? l.statement = some (.malformed e)) : ∃ c, e = .at l c := by
  rw [fault?_eq_some_iff, Line.statement] at h
  split at h
  · split at h
    · rename_i digits read
      cases count : readCount digits with
      | ok n =>
        rw [count] at h
        cases h
      | error oversized =>
        rw [count] at h
        cases h
        -- An oversized count is an error, but none of the syntax.
        exact absurd rfl ((readCount_eq_error count).2 e)
    · rename_i c read
      cases h
      exact ⟨c, rfl⟩
  · split at h
    · split at h
      · cases h
      · rename_i c read
        cases h
        exact ⟨c, rfl⟩
    · cases h
      exact ⟨.unknownStatement, rfl⟩

/-- An error of the first line of a program is about that line. -/
theorem exists_cause_of_header {l : Line} {e : SyntaxError}
    (h : fault? l.header = some (.malformed e)) : ∃ c, e = .at l c := by
  rw [fault?_eq_some_iff, Line.header] at h
  split at h
  · cases h
  · cases h
    exact ⟨.noHeader, rfl⟩

/-- So an error is about the line at which it comes up. -/
theorem exists_cause_of_fault? {inside : Bool} {l : Line} {e : SyntaxError}
    (h : l.fault? inside = some (.malformed e)) : ∃ c, e = .at l c := by
  cases inside with
  | false => exact exists_cause_of_header (fault?_header l ▸ h)
  | true =>
    cases inner : l.isInner with
    | true => exact exists_cause_of_statement (fault?_of_isInner inner ▸ h)
    | false =>
      rw [Line.fault?, if_pos (by simpa [Line.isInner, or_iff_not_imp_left] using inner)] at h
      cases h

/-- An error is about a line, no line before it is at fault, and no line behind it matters. -/
def StopsAt (scan : List Line → Option ReadError) (ls : List Line) (e : SyntaxError) : Prop :=
  ∃ before l after c, ls = before ++ l :: after ∧ e = .at l c ∧ scan before = none ∧
    ∀ other, scan (before ++ l :: other) = some (.malformed e)

/-- Every error about the syntax is that of the first line that is wrong. -/
def StopsAtFirst (scan : List Line → Option ReadError) : Prop :=
  ∀ ls e, scan ls = some (.malformed e) → StopsAt scan ls e

/-- To look for the first fault of all programs is to stop at a line. -/
theorem stopsAtFirst_firstFault? (inside : Bool) : StopsAtFirst (firstFault? inside) := by
  intro ls e fault
  obtain ⟨before, l, after, rfl, ok, wrong⟩ := firstFault?_eq_some_iff.1 fault
  obtain ⟨c, rfl⟩ := exists_cause_of_fault? wrong
  exact ⟨before, l, after, c, rfl, rfl, ok,
    fun other => firstFault?_eq_some_iff.2 ⟨before, l, other, rfl, ok, wrong⟩⟩

/-- One line in front: it is at fault itself, or the fault is the one of the lines behind it. -/
theorem stopsAt_cons {whole part : List Line → Option ReadError} {fault : Option ReadError}
    {first : Line} {rest : List Line} {e : SyntaxError} (nil : whole [] = none)
    (cons : ∀ rest, whole (first :: rest) = fault.or (part rest))
    (own : fault = some (.malformed e) → ∃ c, e = .at first c)
    (behind : part rest = some (.malformed e) → StopsAt part rest e)
    (h : whole (first :: rest) = some (.malformed e)) : StopsAt whole (first :: rest) e := by
  rw [cons] at h
  rcases Option.or_eq_some_iff.1 h with here | ⟨fine, there⟩
  · obtain ⟨c, rfl⟩ := own here
    refine ⟨[], first, rest, c, rfl, rfl, nil, fun other => ?_⟩
    rw [List.nil_append, cons, here, Option.some_or]
  · obtain ⟨before, l, after, c, rfl, rfl, ok, all⟩ := behind there
    refine ⟨first :: before, l, after, c, rfl, rfl, ?_, fun other => ?_⟩
    · rw [cons, fine, ok, Option.or_none]
    · rw [List.cons_append, cons, fine, Option.none_or, all]

/-- So it is to look for the first one inside a program. -/
theorem stopsAtFirst_blockFault? : StopsAtFirst blockFault? := by
  intro ls e fault
  induction ls with
  | nil => cases fault
  | cons l ls ih =>
    cases ends : l.isReturn with
    | true =>
      rw [blockFault?, if_pos ends] at fault
      cases fault
    | false =>
      have cons (rest : List Line) :
          blockFault? (l :: rest) = (fault? l.statement).or (blockFault? rest) := by
        rw [blockFault?, ends, if_neg Bool.false_ne_true]
      exact stopsAt_cons rfl cons exists_cause_of_statement ih fault

/-- And for the first one of a whole program. -/
theorem stopsAtFirst_programFault? : StopsAtFirst programFault? := by
  intro ls e fault
  cases ls with
  | nil => cases fault
  | cons first rest =>
    exact stopsAt_cons rfl (fun _ => rfl) exists_cause_of_header (stopsAtFirst_blockFault? rest e)
      fault

/-! ## Lines of the text -/

/-- A text that a reader finds no fault with, or nothing but blank lines. -/
def Unfaulted {α : Type} (reader : String → Except ReadError α) (source : String) : Prop :=
  (∃ a, reader source = .ok a) ∨
    (∀ l ∈ lines source.toList, AllBlank l) ∧ reader source = .error (.malformed .empty)

/-- An error of a reader is about a line of a text. -/
structure PointsAt {α : Type} (reader : String → Except ReadError α) (source : String)
    (e : SyntaxError) (l : Line) : Prop where
  line : e.line? = some l
  /-- The message ends with the number of the line. -/
  message : ∃ said, e.message = said ++ " (line " ++ toString l.number ++ ")"
  /-- The text has that line, and the line is not blank. -/
  text : HasLine (lines source.toList) l ∧ l.text ≠ []
  /-- A text of the lines before it is not at fault. It may lack empty lines at the end. -/
  before : ∀ (earlier : String) (pad : List (List Char)),
    lines earlier.toList ++ pad = (lines source.toList).take (l.number - 1) →
      (∀ m ∈ pad, m = []) → Unfaulted reader earlier
  /-- So the lines before it are not at fault, put together. -/
  joined : Unfaulted reader (String.ofList (join ((lines source.toList).take (l.number - 1))))
  /-- Every text with the same lines up to that one has the same error. -/
  after : ∀ other : String, (lines other.toList).take l.number =
    (lines source.toList).take l.number → reader other = .error (.malformed e)

/-- What an error of a reader tells of a text: that it has no line that is not blank, or the first
    line that is wrong. -/
def Blames {α : Type} (reader : String → Except ReadError α) (source : String)
    (e : SyntaxError) : Prop :=
  (e.line? = none ∧ ∀ l ∈ lines source.toList, AllBlank l) ∨ ∃ l, PointsAt reader source e l

section

variable {α : Type} {reader : String → Except ReadError α} {scan : List Line → Option ReadError}
  (scanned : ∀ source : String, fault? (reader source) =
    if significant source.toList = [] then some (.malformed .empty)
    else scan (significant source.toList))

include scanned

/-- A text whose lines are not at fault is read, or has no lines that count. -/
theorem unfaulted_of_scan {source : String} (ok : scan (significant source.toList) = none) :
    Unfaulted reader source := by
  have fault := scanned source
  split at fault
  · rename_i none
    exact .inr ⟨significantFrom_eq_nil_iff.1 none, fault?_eq_some_iff.1 fault⟩
  · exact .inl (fault?_eq_none_iff.1 (fault.trans ok))

/-- The error is settled by the lines of the text up to the one that it is about. -/
theorem blames_of_stopsAtFirst (stops : StopsAtFirst scan) {source : String} {e : SyntaxError}
    (h : reader source = .error (.malformed e)) : Blames reader source e := by
  have fault := scanned source
  rw [h, fault?_error] at fault
  split at fault
  · rename_i none
    cases fault
    exact .inl ⟨rfl, significantFrom_eq_nil_iff.1 none⟩
  obtain ⟨before, l, after, c, eq, rfl, ok, all⟩ := stops _ _ fault.symm
  have mem : l ∈ significant source.toList := by
    rw [eq]
    exact List.mem_append_right _ List.mem_cons_self
  obtain ⟨without, upTo⟩ := significantFrom_take eq
  -- The reader sees the lines that are not blank, and these are the ones before `l`.
  have earlier (t : String) (pad : List (List Char))
      (split : lines t.toList ++ pad = (lines source.toList).take (l.number - 1))
      (empty : ∀ m ∈ pad, m = []) : Unfaulted reader t := by
    have same : significant t.toList = before := by
      rw [← without, ← split, significantFrom_append, significantFrom_of_empty empty,
        List.append_nil, significant]
    exact unfaulted_of_scan scanned (same ▸ ok)
  refine .inr ⟨l, rfl, ⟨c.message l.text, rfl⟩, mem_significantFrom_iff.1 mem, earlier, ?_,
    fun other agrees => ?_⟩
  · have unbroken : ∀ m ∈ (lines source.toList).take (l.number - 1), Unbroken m := fun m mem =>
      unbroken_of_mem_lines (List.mem_of_mem_take mem)
    obtain ⟨pad, empty, split⟩ := exists_lines_join unbroken
    exact earlier _ pad (by rw [String.toList_ofList, split]) empty
  · obtain ⟨rest, same⟩ : ∃ rest, significant other.toList = before ++ l :: rest := by
      have cut := significantFrom_append 1 ((lines other.toList).take l.number)
        ((lines other.toList).drop l.number)
      rw [List.take_append_drop, agrees, upTo, List.append_assoc] at cut
      exact ⟨_, cut⟩
    have fault := scanned other
    rw [if_neg (by simp [same]), same, all] at fault
    exact fault?_eq_some_iff.1 fault

end

/-- An error of either reader points at the first line of the text that is wrong, if the text has
    any line that is not blank. -/
theorem blames_of_malformed (source : String) (e : SyntaxError) :
    (Script.read source = .error (.malformed e) → Blames Script.read source e) ∧
    (readAll source = .error (.malformed e) → Blames readAll source e) :=
  ⟨blames_of_stopsAtFirst fault?_read stopsAtFirst_programFault?,
    blames_of_stopsAtFirst fault?_readAll (stopsAtFirst_firstFault? false)⟩

/-- A line that sets the speed to no number, behind blank lines and other kinds of line breaks. The
    line behind the end of the program is wrong as well, but comes later. -/
theorem blames_of_malformed_fourth_line :
    let source := "\r\ndef p\u2028\t\n  set speed x\t\nreturn\nset speed 2"
    ∃ e, e.message = "Invalid number 'x' (line 4)" ∧
      Script.read source = .error (.malformed e) ∧ readAll source = .error (.malformed e) ∧
      Blames Script.read source e ∧ Blames readAll source e := by
  intro source
  let e : SyntaxError := .at ⟨4, "set speed x".toList⟩ (.badNumber ['x'])
  have one : fault? (Script.read source) = some (.malformed e) := by decide +kernel
  have all : fault? (readAll source) = some (.malformed e) := by decide +kernel
  rw [fault?_eq_some_iff] at one all
  exact ⟨e, by decide +kernel, one, all, (blames_of_malformed source e).1 one,
    (blames_of_malformed source e).2 all⟩

end Carom.Script
