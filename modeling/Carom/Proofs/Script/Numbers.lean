import Carom.Proofs.Binary64.Decimal
import Carom.Proofs.Footprint
import Carom.Proofs.Script.Meaning
import Carom.Proofs.Script.Excerpt

/-!
# The numbers in a script

The words `inf` and `nan` are no numerals, so no number in a script is nan. But a numeral may be
of any size, and one that is rounded beyond the range of the format (`Numeral.Overflows`) is read
as infinity. A count is not: what no number can hold is an error there. So the numbers of a script
are finite iff no line sets or changes the speed by such a numeral (`isFinite_numbers_iff`).
-/

namespace Carom

/-! ## Gathering numbers -/

/-- The numbers that are written in an expression. -/
def Expression.numbers : Expression → List Binary64
  | literal (.number n) => [n]
  | literal _ => []
  | var _ => []
  | binary _ left right => left.numbers ++ right.numbers
  | ball _ => []
  | random min max => [min, max]

/-- The numbers that are written in an instruction, at every depth. -/
def Instruction.numbers (i : Instruction) : List Binary64 := i.gather Expression.numbers fun _ => []

/-- The numbers that are written in a block. -/
def Instruction.numbersAll (block : List Instruction) : List Binary64 :=
  gatherAll Expression.numbers (fun _ => []) block

/-- The numbers that are written in a program. -/
def Program.numbers (p : Program) : List Binary64 := Instruction.numbersAll p.instructions

/-- A numeral that is rounded beyond the range of the format: half a unit below its end, or
    farther from zero. -/
def Text.Numeral.Overflows (n : Text.Numeral) : Prop :=
  (2 ^ 1024 - 2 ^ 970) * 10 ^ (-n.exponent).toNat ≤ n.digits * 10 ^ n.exponent.toNat

/-- A numeral gives a finite number unless it overflows. -/
theorem Text.Numeral.isFinite_toNumber_iff (n : Text.Numeral) :
    n.toNumber.isFinite ↔ ¬n.Overflows := by
  rw [toNumber, Binary64.isFinite_ofDecimal, Overflows, Nat.not_le]

/-- An integer that is in range is finite. -/
theorem Binary64.isFinite_of_ofInt? {z : Int} {n : Binary64} (h : ofInt? z = some n) :
    n.isFinite := by
  rw [ofInt?] at h
  split at h
  · rename_i finite
    exact Option.some.inj h ▸ finite
  · cases h

namespace Script

open Text

theorem numbers_bounceFrom (hits : Binary64) : (bounceFrom hits).numbers = [hits] := rfl

theorem numbers_setSpeed (speed : Binary64) : (setSpeed speed).numbers = [speed] := rfl

theorem numbers_changeSpeed (change : Binary64) : (changeSpeed change).numbers = [change] := rfl

theorem numbers_setDirection (d : Direction) : (setDirection d).numbers = [] := rfl

/-! ## Lines -/

/-- The words of a line that sets or changes the speed by a numeral beyond the range. -/
inductive SpellsOverflow : List (List Char) → Prop
  | speed {value : List Char} {n : Numeral} : Numeral.read? digit? value = some n → n.Overflows →
      SpellsOverflow ["set".toList, "speed".toList, value]
  | change {value : List Char} {n : Numeral} : Numeral.read? digit? value = some n → n.Overflows →
      SpellsOverflow ["set".toList, "speed".toList, "relative".toList, value]

/-- A line that sets or changes the speed by a numeral beyond the range. -/
def Line.Overflows (l : Line) : Prop := SpellsOverflow (Text.words l.text)

/-- A speed overflows iff its numeral does. -/
theorem spellsOverflow_speed_iff {value : List Char} {n : Numeral}
    (read : Numeral.read? digit? value = some n) :
    SpellsOverflow ["set".toList, "speed".toList, value] ↔ n.Overflows := by
  refine ⟨fun spelled => ?_, fun overflows => .speed read overflows⟩
  generalize words : ["set".toList, "speed".toList, value] = ws at spelled
  cases spelled with
  | speed read' overflows =>
    obtain rfl : value = _ := by simpa using words
    exact Option.some.inj (read.symm.trans read') ▸ overflows
  | change => simp at words

/-- And so does a change of speed. -/
theorem spellsOverflow_change_iff {value : List Char} {n : Numeral}
    (read : Numeral.read? digit? value = some n) :
    SpellsOverflow ["set".toList, "speed".toList, "relative".toList, value] ↔ n.Overflows := by
  refine ⟨fun spelled => ?_, fun overflows => .change read overflows⟩
  generalize words : ["set".toList, "speed".toList, "relative".toList, value] = ws at spelled
  cases spelled with
  | speed => simp at words
  | change read' overflows =>
    obtain rfl : value = _ := by simpa using words
    exact Option.some.inj (read.symm.trans read') ▸ overflows

theorem SpellsOverflow.exists_words {ws : List (List Char)} (h : SpellsOverflow ws) :
    ∃ more, ws = "set".toList :: "speed".toList :: more := by
  cases h with
  | speed => exact ⟨_, rfl⟩
  | change => exact ⟨_, rfl⟩

/-- No number of a list is nan, and all of them are finite iff nothing overflows. -/
structure Bounded (numbers : List Binary64) (overflows : Prop) : Prop where
  ne_nan : ∀ n ∈ numbers, n ≠ .nan
  isFinite_iff : (∀ n ∈ numbers, n.isFinite) ↔ ¬overflows

/-- A numeral never gives nan. -/
theorem bounded_toNumber (n : Numeral) : Bounded [n.toNumber] n.Overflows := by
  constructor
  · rintro _ mem rfl
    exact Binary64.ofDecimal_ne_nan _ _ _ (List.mem_singleton.1 mem).symm
  · rw [List.forall_mem_singleton, n.isFinite_toNumber_iff]

/-- Finite numbers are bounded where nothing overflows. -/
theorem bounded_of_isFinite {numbers : List Binary64} {overflows : Prop}
    (finite : ∀ n ∈ numbers, n.isFinite) (none : ¬overflows) : Bounded numbers overflows := by
  refine ⟨?_, iff_of_true finite none⟩
  rintro _ mem rfl
  exact Bool.false_ne_true (finite _ mem)

/-- Numbers of two parts are finite iff nothing overflows in either. -/
theorem Bounded.append {front back : List Binary64} {overflows overflows' : Prop}
    (hfront : Bounded front overflows) (hback : Bounded back overflows') :
    Bounded (front ++ back) (overflows ∨ overflows') := by
  constructor
  · exact fun n mem => (List.mem_append.1 mem).elim (hfront.ne_nan n) (hback.ne_nan n)
  · rw [List.forall_mem_append, hfront.isFinite_iff, hback.isFinite_iff, not_or]

/-- The numbers in the instruction that some words spell. -/
theorem bounded_of_spells {ws : List (List Char)} {i : Instruction} (h : Spells ws i) :
    Bounded i.numbers (SpellsOverflow ws) := by
  cases h with
  | @condition color target count digits hits read short fits =>
    rw [numbers_bounceFrom]
    refine bounded_of_isFinite ?_ fun overflows => ?_
    · rw [List.forall_mem_singleton]
      exact Binary64.isFinite_of_ofInt? fits
    · obtain ⟨more, words⟩ := overflows.exists_words
      exact absurd (List.cons.inj words).1 (by decide)
  | @speed value n read =>
    rw [numbers_setSpeed, spellsOverflow_speed_iff read]
    exact bounded_toNumber n
  | @change value n read =>
    rw [numbers_changeSpeed, spellsOverflow_change_iff read]
    exact bounded_toNumber n
  | direction read =>
    rw [numbers_setDirection]
    refine bounded_of_isFinite (List.forall_mem_nil _) fun overflows => ?_
    obtain ⟨more, words⟩ := overflows.exists_words
    exact absurd (List.cons.inj (List.cons.inj words).2).1 (by decide)

/-- The numbers in the instructions that some lines are read as. -/
theorem bounded_of_statements {ls : List Line} {block : List Instruction}
    (h : List.Forall₂ (fun l i => Line.statement l = .ok i) ls block) :
    Bounded (Instruction.numbersAll block) (∃ l ∈ ls, l.Overflows) := by
  induction h with
  | nil => exact bounded_of_isFinite (List.forall_mem_nil _) (by simp)
  | @cons l i ls block statement _ ih =>
    rw [List.exists_mem_cons_iff]
    exact (bounded_of_spells (statement_eq_ok_iff.1 statement).2).append ih

/-! ## Texts -/

/-- Such a line stands inside a program. -/
theorem Line.Overflows.isInner {l : Line} (h : l.Overflows) : l.isInner := by
  obtain ⟨more, words⟩ := SpellsOverflow.exists_words h
  exact isInner_of_words words (by decide) (by decide)

/-- In a chunk, what stands inside the program are the statements. -/
theorem Chunk.Closed.mem_statements {c : Chunk} (h : c.Closed) (header : c.header.isHeader)
    {l : Line} (mem : l ∈ c.lines) (inner : l.isInner) : l ∈ c.statements := by
  rcases Chunk.mem_lines_iff.1 mem with rfl | statement | last
  · exact absurd inner (by simp [isInner_of_isHeader header])
  · exact statement
  · exact absurd inner (by simp [isInner_of_isReturn (h.ends l last)])

/-- The numbers of a program come from the lines of its chunk. -/
theorem bounded_of_program {ls : List (List Char)} {c : Chunk} (closed : c.Closed) {p : Program}
    (h : c.program ls = .ok p) : Bounded p.numbers (∃ l ∈ c.lines, l.Overflows) := by
  obtain ⟨header, statements, -⟩ := program_eq_ok_iff.1 h
  have inside : (∃ l ∈ c.lines, l.Overflows) ↔ ∃ l ∈ c.statements, l.Overflows := by
    constructor
    · rintro ⟨l, mem, overflows⟩
      exact ⟨l, closed.mem_statements header mem overflows.isInner, overflows⟩
    · rintro ⟨l, mem, overflows⟩
      exact ⟨l, Chunk.mem_lines_iff.2 (.inr (.inl mem)), overflows⟩
  rw [inside]
  exact bounded_of_statements statements

/-- And those of all programs from the lines of all chunks. -/
theorem bounded_of_programs {ls : List (List Char)} {cs : List Chunk} {ps : List Program}
    (closed : ∀ c ∈ cs, c.Closed) (h : List.Forall₂ (fun c p => c.program ls = .ok p) cs ps) :
    Bounded (ps.flatMap Program.numbers) (∃ l ∈ cs.flatMap Chunk.lines, l.Overflows) := by
  induction h with
  | nil => exact bounded_of_isFinite (List.forall_mem_nil _) (by simp)
  | @cons c p cs ps read _ ih =>
    simp only [List.flatMap_cons, List.mem_append, or_and_right, exists_or]
    exact (bounded_of_program (closed c List.mem_cons_self) read).append
      (ih fun d mem => closed d (List.mem_cons_of_mem _ mem))

/-- Whatever a text is read as, its numbers are finite. -/
def ReadsFinite (source : String) : Prop :=
  (∀ p, Script.read source = .ok p → ∀ n ∈ p.numbers, n.isFinite) ∧
    ∀ ps, readAll source = .ok ps → ∀ n ∈ ps.flatMap Program.numbers, n.isFinite

/-- A numeral with a large exponent is read as infinity, though the word for it is no numeral. -/
theorem not_readsFinite_of_large_exponent : ¬ReadsFinite "def p\nset speed 1e400" := by
  intro finite
  have unfaulted : fault? (Script.read "def p\nset speed 1e400") = none := by decide +kernel
  obtain ⟨p, one⟩ := fault?_eq_none_iff.1 unfaulted
  let l : Line := ⟨2, "set speed 1e400".toList⟩
  have overflows : l.Overflows := by
    have spelled : Text.words l.text = ["set".toList, "speed".toList, "1e400".toList] := by
      decide +kernel
    have read : Numeral.read? digit? "1e400".toList = some ⟨false, 1, 400⟩ := by decide +kernel
    rw [Line.Overflows, spelled, spellsOverflow_speed_iff read, Numeral.Overflows]
    decide +kernel
  have inProgram : l ∈ statementLines "def p\nset speed 1e400" := by decide +kernel
  exact (bounded_of_statements (statements_of_read one)).isFinite_iff.1 (finite.1 p one)
    ⟨l, inProgram, overflows⟩

/-- No number that is read from a text is nan, and all are finite iff no line sets or changes the
    speed by a numeral beyond the range. Lines behind the end of the program do not matter to a
    reader that ignores them. -/
theorem isFinite_numbers_iff (source : String) :
    (∀ p, Script.read source = .ok p →
      Bounded p.numbers (∃ l ∈ statementLines source, l.Overflows)) ∧
    ∀ ps, readAll source = .ok ps →
      Bounded (ps.flatMap Program.numbers) (∃ l ∈ significant source.toList, l.Overflows) := by
  refine ⟨fun p read => bounded_of_statements (statements_of_read read), fun ps read => ?_⟩
  -- All lines are in chunks, so one of them overflows iff a line of some chunk does.
  rw [← flatMap_chunks (significant source.toList)]
  exact bounded_of_programs (fun _ => closed_of_mem_chunks) (readAll_eq_ok_iff.1 read).2

/-- A number that is in range and a change that is not. -/
theorem isFinite_numbers_iff_of_two_digits :
    let source := "def p\nset speed 17e307\nset speed relative -18e307"
    ∃ p ps, Script.read source = .ok p ∧ readAll source = .ok ps ∧
      (∀ n ∈ p.numbers, n ≠ .nan) ∧ ¬(∀ n ∈ p.numbers, n.isFinite) ∧
      ¬∀ n ∈ ps.flatMap Program.numbers, n.isFinite := by
  intro source
  have unfaulted : fault? (Script.read source) = none := by decide +kernel
  have unfaulted' : fault? (readAll source) = none := by decide +kernel
  obtain ⟨p, one⟩ := fault?_eq_none_iff.1 unfaulted
  obtain ⟨ps, all⟩ := fault?_eq_none_iff.1 unfaulted'
  let l : Line := ⟨3, "set speed relative -18e307".toList⟩
  have overflows : l.Overflows := by
    have spelled : Text.words l.text =
        ["set".toList, "speed".toList, "relative".toList, "-18e307".toList] := by decide +kernel
    have read : Numeral.read? digit? "-18e307".toList = some ⟨true, 18, 307⟩ := by decide +kernel
    rw [Line.Overflows, spelled, spellsOverflow_change_iff read, Numeral.Overflows]
    decide +kernel
  have inProgram : l ∈ statementLines source := by decide +kernel
  have inText : l ∈ significant source.toList := by decide +kernel
  have bounded := (isFinite_numbers_iff source).1 p one
  have bounded' := (isFinite_numbers_iff source).2 ps all
  exact ⟨p, ps, one, all, bounded.ne_nan,
    fun finite => bounded.isFinite_iff.1 finite ⟨l, inProgram, overflows⟩,
    fun finite => bounded'.isFinite_iff.1 finite ⟨l, inText, overflows⟩⟩

end Script

end Carom
