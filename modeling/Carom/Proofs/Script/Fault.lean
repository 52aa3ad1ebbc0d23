import Mathlib.Data.List.Forall2
import Carom.Proofs.Script.Grammar
import Carom.Script.Program

/-!
# The first fault of a script

Whether a line is at fault depends on little: on the line itself, and on whether it stands
inside a program, which is so if there is a line before it and that one ends no program
(`Line.fault?`). The programs of a text are cut out first and read afterwards, but the
error that comes of it is the fault of the first line that has one, in the order of the
text (`fault?_readAll`).
-/

namespace Carom.Script

open Text

/-! ## Errors of results -/

/-- The error of a result, if it is one. -/
def fault? {α : Type} : Except ReadError α → Option ReadError
  | .ok _ => none
  | .error e => some e

@[simp] theorem fault?_ok {α : Type} (a : α) : fault? (.ok a : Except ReadError α) = none := rfl

@[simp] theorem fault?_error {α : Type} (e : ReadError) :
    fault? (.error e : Except ReadError α) = some e := rfl

theorem fault?_eq_some_iff {α : Type} {r : Except ReadError α} {e : ReadError} :
    fault? r = some e ↔ r = .error e := by
  cases r <;> simp

/-- What has no error is read. -/
theorem fault?_eq_none_iff {α : Type} {r : Except ReadError α} :
    fault? r = none ↔ ∃ a, r = .ok a := by
  cases r <;> simp

@[simp] theorem fault?_mapM_nil {α β : Type} (f : α → Except ReadError β) :
    fault? (([] : List α).mapM f) = none := rfl

/-- Reading one after the other ends with the first error. -/
theorem fault?_mapM_cons {α β : Type} (f : α → Except ReadError β) (a : α) (as : List α) :
    fault? ((a :: as).mapM f) = (fault? (f a)).or (fault? (as.mapM f)) := by
  rw [List.mapM_cons]
  cases f a with
  | error e => rfl
  | ok b => cases as.mapM f <;> rfl

/-- Reading one after the other ends well iff each is read. -/
theorem mapM_eq_ok_iff {α β : Type} {f : α → Except ReadError β} {as : List α} {bs : List β} :
    as.mapM f = .ok bs ↔ List.Forall₂ (fun a b => f a = .ok b) as bs := by
  induction as generalizing bs with
  | nil => simp [pure, Except.pure, eq_comm]
  | cons a as ih =>
    rw [List.mapM_cons, List.forall₂_cons_left_iff]
    cases f a with
    | error e => simp [bind, Except.bind]
    | ok b =>
      simp only [← ih]
      cases as.mapM f <;> simp [bind, Except.bind, pure, Except.pure, eq_comm]

/-! ## Faults of lines -/

/-- What is wrong with a line that stands inside a program, or outside of all. -/
def Line.fault? (inside : Bool) (l : Line) : Option ReadError :=
  if l.isHeader || inside && l.isReturn then none
  else if inside then Script.fault? l.statement
  else some (.malformed (.at l .noHeader))

/-- The first fault of some lines, the first of which stands inside a program or not. -/
def firstFault? : Bool → List Line → Option ReadError
  | _, [] => none
  | inside, l :: ls => (l.fault? inside).or (firstFault? (!l.isReturn) ls)

/-- Whether the line after some lines stands inside a program. -/
def insideAfter (inside : Bool) (before : List Line) : Bool :=
  match before.getLast? with
  | none => inside
  | some l => !l.isReturn

/-- A line may begin a program wherever it stands. -/
theorem fault?_of_isHeader {l : Line} (h : l.isHeader) (inside : Bool) :
    l.fault? inside = none := by
  simp [Line.fault?, h]

/-- Inside a program, a line may end it. -/
theorem fault?_of_isReturn {l : Line} (h : l.isReturn) : l.fault? true = none := by
  simp [Line.fault?, h]

/-- Any other line inside a program has to be a statement. -/
theorem fault?_of_isInner {l : Line} (h : l.isInner) : l.fault? true = fault? l.statement := by
  simp_all [Line.fault?, Line.isInner]

/-- Outside of programs, a line has to begin one. -/
theorem fault?_header (l : Line) : l.fault? false = fault? l.header := by
  cases h : l.isHeader <;> simp [Line.fault?, Line.header, Line.error, h]

/-- The line that begins a program does not end it. -/
theorem isReturn_of_isHeader {l : Line} (h : l.isHeader) : l.isReturn = false := by
  rw [← Bool.not_eq_true]
  intro ret
  rw [Line.isReturn, beq_iff_eq] at ret
  rw [Line.isHeader, ret] at h
  exact absurd h (by decide)

/-- A statement ends no program. -/
theorem isReturn_of_isInner {l : Line} (h : l.isInner) : l.isReturn = false := by
  simp_all [Line.isInner]

/-- The first word of a line tells whether it begins or ends a program. -/
theorem isInner_of_words {l : Line} {first : List Char} {more : List (List Char)}
    (h : words l.text = first :: more) (ne_def : first ≠ "def".toList)
    (ne_return : first ≠ "return".toList) : l.isInner := by
  have notHeader : ¬l.isHeader := by
    intro isHeader
    rw [words_of_startsWith (by decide) (by decide) isHeader] at h
    exact ne_def (List.cons.inj h).1.symm
  have notReturn : ¬l.isReturn := by
    intro isReturn
    have alone : words "return".toList = ["return".toList] := by decide
    rw [beq_iff_eq.1 isReturn, alone] at h
    exact ne_return (List.cons.inj h).1.symm
  simp [Line.isInner, notHeader, notReturn]

/-- A fault at some place, and none before it. -/
theorem firstFault?_eq_some_iff {inside : Bool} {ls : List Line} {e : ReadError} :
    firstFault? inside ls = some e ↔ ∃ before l after, ls = before ++ l :: after ∧
      firstFault? inside before = none ∧ l.fault? (insideAfter inside before) = some e := by
  induction ls generalizing inside with
  | nil => simp [firstFault?]
  | cons l ls ih =>
    rw [firstFault?, Option.or_eq_some_iff, ih]
    constructor
    · rintro (here | ⟨none, before, m, after, rfl, ok, there⟩)
      · exact ⟨[], l, ls, rfl, rfl, here⟩
      · refine ⟨l :: before, m, after, rfl, by simp [firstFault?, none, ok], ?_⟩
        -- Only the last line before the fault matters, which is `l` if there is no other.
        cases before <;> simpa [insideAfter, List.getLast?_cons] using there
    · rintro ⟨before, m, after, eq, ok, there⟩
      cases before with
      | nil =>
        obtain ⟨rfl, rfl⟩ := List.cons.inj eq
        exact .inl there
      | cons p before =>
        obtain ⟨rfl, rfl⟩ := List.cons.inj eq
        rw [firstFault?, Option.or_eq_none_iff] at ok
        refine .inr ⟨ok.1, before, m, after, rfl, ok.2, ?_⟩
        cases before <;> simpa [insideAfter, List.getLast?_cons] using there

/-! ## Faults of programs -/

/-- Statements are at fault where they cannot be read. -/
theorem firstFault?_append_of_isInner {statements : List Line} (h : ∀ l ∈ statements, l.isInner)
    (rest : List Line) : firstFault? true (statements ++ rest) =
      (fault? (statements.mapM Line.statement)).or (firstFault? true rest) := by
  induction statements with
  | nil => rfl
  | cons l statements ih =>
    have inner : l.isInner := h l List.mem_cons_self
    rw [List.cons_append, firstFault?, fault?_of_isInner inner, isReturn_of_isInner inner,
      Bool.not_false, ih fun m hm => h m (List.mem_cons_of_mem _ hm), fault?_mapM_cons,
      Option.or_assoc]

/-- A chunk has the fault of its first line, or the first one of its statements. -/
theorem fault?_program (source : List (List Char)) (c : Chunk) :
    fault? (c.program source) =
      (c.header.fault? false).or (fault? (c.statements.mapM Line.statement)) := by
  rw [fault?_header, Chunk.program]
  cases c.header.header with
  | error e => rfl
  | ok name => cases c.statements.mapM Line.statement <;> rfl

/-- A header, the statements behind it, and what stops them. Without a header nothing else
    counts, with one the rest stands inside its program. -/
theorem firstFault?_cons (header : Line) (rest : List Line) :
    firstFault? false (header :: rest) =
      ((header.fault? false).or
        (fault? ((rest.takeWhile Line.isInner).mapM Line.statement))).or
          (firstFault? true (rest.dropWhile Line.isInner)) := by
  rw [firstFault?, Option.or_assoc,
    ← firstFault?_append_of_isInner (List.all_eq_true.1 List.all_takeWhile),
    List.takeWhile_append_dropWhile]
  cases h : header.isHeader with
  | true => rw [isReturn_of_isHeader h, Bool.not_false]
  | false => simp [Line.fault?, h]

/-- The line that stops the statements of a program begins the next one or ends this one. -/
theorem isReturn_of_dropWhile {rest more : List Line} {next : Line}
    (h : rest.dropWhile Line.isInner = next :: more) (notHeader : ¬next.isHeader) :
    next.isReturn := by
  have stop : next.isInner = false := by
    have := List.head?_dropWhile_not Line.isInner rest
    rwa [h] at this
  simpa [Line.isInner, notHeader] using stop

/-- Cutting a text into programs does not change which fault is the first. -/
theorem fault?_chunks (source : List (List Char)) (ls : List Line) :
    fault? ((chunks ls).mapM (Chunk.program source)) = firstFault? false ls := by
  fun_induction chunks ls with
  | case1 => rfl
  | case2 header rest statements h =>
    rw [fault?_mapM_cons, fault?_program, firstFault?_cons header rest, h, fault?_mapM_nil]
    rfl
  | case3 header rest statements next more h isHeader ih =>
    -- A header is never at fault, so it does not matter that it also ends a program.
    have resume : firstFault? true (next :: more) = firstFault? false (next :: more) := by
      rw [firstFault?, firstFault?, fault?_of_isHeader isHeader, fault?_of_isHeader isHeader]
    rw [fault?_mapM_cons, fault?_program, ih, firstFault?_cons header rest, h, resume]
  | case4 header rest statements next more h notHeader ih =>
    have isReturn : next.isReturn := isReturn_of_dropWhile h notHeader
    have resume : firstFault? true (next :: more) = firstFault? false more := by
      rw [firstFault?, fault?_of_isReturn isReturn, isReturn, Option.none_or, Bool.not_true]
    rw [fault?_mapM_cons, fault?_program, ih, firstFault?_cons header rest, h, resume]

/-- Reading all programs of a text fails with the first fault of its lines, or for want of
    any line. -/
theorem fault?_readAll (source : String) : fault? (readAll source) =
    if significant source.toList = [] then some (.malformed .empty)
    else firstFault? false (significant source.toList) := by
  rw [readAll]
  split
  · rename_i none
    simp [none]
  · rename_i some
    rw [if_neg some, fault?_chunks]

end Carom.Script
