import Carom.Program

/-!
# Squares

A square holds programs, one of which may be active, and a table of steps for
collisions while none is. That the index of the active program is in range is part of
the type; `add` and `activate` keep it, and `activate` refuses an index that is not in
range, and no other (`activate_eq_error_iff`).
-/

namespace Carom

/-- What a step does to the ball. -/
inductive Effect where
  | bounce
  | stop
  /-- Multiply the speed. -/
  | multiplySpeed (factor : Binary64)
  | changeDirection (direction : Direction)
  /-- Play the sample of that index. -/
  | playSample (index : Nat)
  /-- Run the program of that index of the square. -/
  | execute (index : Nat)
  deriving DecidableEq, BEq

/-- An effect and the hit of the square on which it takes place. -/
structure Step where
  /-- The number of the hit, counted from one. -/
  trigger : Nat
  /-- What happens then. -/
  effect : Effect
  trigger_pos : 1 ≤ trigger
  deriving DecidableEq

instance : BEq Step where
  beq a b := a.trigger == b.trigger && a.effect == b.effect

/-- The programs of a square, which of them is active, and its steps. -/
structure Square where
  /-- The programs, in the order in which they were added. -/
  programs : List Program
  /-- The index of the active program. -/
  active : Option Nat
  /-- The table for collisions while no program is active. -/
  steps : List Step
  active_lt : ∀ i ∈ active, i < programs.length

instance : BEq Square where
  beq a b := a.programs == b.programs && a.active == b.active && a.steps == b.steps

/-- An index that is out of the range of the programs of a square. -/
structure OutOfRange where
  /-- The index. -/
  index : Int
  /-- How many programs there are. -/
  count : Nat
  deriving DecidableEq

/-- The index and the range, for a message about either. -/
def OutOfRange.text (e : OutOfRange) : String :=
  toString e.index ++ " out of range (0.." ++ toString ((e.count : Int) - 1) ++ ")"

/-- The text for a program that cannot be activated. -/
def OutOfRange.message (e : OutOfRange) : String := "Program index " ++ e.text

namespace Square

/-- The active program. -/
def activeProgram? (s : Square) : Option Program :=
  match h : s.active with
  | none => none
  | some i => some (s.programs.get ⟨i, s.active_lt i h⟩)

/-- Put a program behind the others; its index is their number. -/
def add (s : Square) (p : Program) : Square where
  programs := s.programs ++ [p]
  active := s.active
  steps := s.steps
  active_lt i h := by
    have := s.active_lt i h
    simp only [List.length_append, List.length_singleton]
    omega

/-- Make the program of that index the active one, or none. -/
def activate (s : Square) (index : Option Int) : Except OutOfRange Square :=
  match index with
  | none => .ok ⟨s.programs, none, s.steps, nofun⟩
  | some (.ofNat i) =>
    if h : i < s.programs.length then
      .ok ⟨s.programs, some i, s.steps, fun j e => by cases e; exact h⟩
    else
      .error ⟨i, s.programs.length⟩
  | some (.negSucc i) => .error ⟨.negSucc i, s.programs.length⟩

theorem isSome_activeProgram? (s : Square) : s.activeProgram?.isSome = s.active.isSome := by
  unfold activeProgram?
  split <;> simp_all

/-- With another program active, a square is the same otherwise. -/
theorem activate_eq_ok_iff {s t : Square} {index : Option Int} : s.activate index = .ok t ↔
    t.programs = s.programs ∧ t.active.map Int.ofNat = index ∧ t.steps = s.steps := by
  constructor
  · intro h
    unfold activate at h
    split at h
    · cases h
      exact ⟨rfl, rfl, rfl⟩
    · split at h
      · cases h
        exact ⟨rfl, rfl, rfl⟩
      · cases h
    · cases h
  · obtain ⟨programs, active, steps, active_lt⟩ := t
    rintro ⟨rfl, rfl, rfl⟩
    cases active with
    | none => rfl
    | some i =>
      have lt : i < s.programs.length := active_lt i rfl
      simp only [Option.map_some, activate, dif_pos lt]

/-- An index is refused iff it is out of range. -/
theorem activate_eq_error_iff (s : Square) (index : Option Int) (e : OutOfRange) :
    s.activate index = .error e ↔
      ∃ i, index = some i ∧ (i < 0 ∨ (s.programs.length : Int) ≤ i) ∧
        e = ⟨i, s.programs.length⟩ := by
  match index with
  | none => simp [activate]
  | some (.ofNat i) =>
    by_cases h : i < s.programs.length
    · simp only [activate, h, dif_pos, reduceCtorEq, false_iff, Option.some.injEq]
      rintro ⟨_, rfl, out, _⟩
      rw [Int.ofNat_eq_natCast] at out
      omega
    · simp only [activate, h, dif_neg, not_false_eq_true, Except.error.injEq, Option.some.injEq]
      constructor
      · rintro rfl
        exact ⟨i, rfl, .inr (Int.ofNat_le.2 (Nat.not_lt.1 h)), rfl⟩
      · rintro ⟨_, rfl, _, rfl⟩
        rfl
  | some (.negSucc i) =>
    simp only [activate, Except.error.injEq, Option.some.injEq]
    constructor
    · rintro rfl
      exact ⟨.negSucc i, rfl, .inl (by omega), rfl⟩
    · rintro ⟨_, rfl, _, rfl⟩
      rfl

end Square

end Carom
