import Carom.Expression

/-!
# The engine

What evaluation keeps besides values: the source of random numbers, the tally of
fallbacks, and a journal. Scripts do not fail on bad values. Where a value does not
fit, a stand-in is used, which is a *fallback*; each one is counted in the tally
and written into the journal as a *mishap*, which says what went wrong
(`Engine.record`).
-/

namespace Carom

/-- The kinds of fallback that are counted. -/
inductive Fallback where
  | unresolvedVariable
  | typeMismatch
  | divisionByZero
  | droppedInstruction
  | emptyRandomRange
  deriving DecidableEq

namespace Fallback

/-- All kinds of fallback. -/
def all : List Fallback :=
  [unresolvedVariable, typeMismatch, divisionByZero, droppedInstruction, emptyRandomRange]

/-- The name under which a fallback is reported. -/
def name : Fallback → String
  | unresolvedVariable => "unresolved_variable"
  | typeMismatch => "type_mismatch"
  | divisionByZero => "division_by_zero"
  | droppedInstruction => "dropped_instruction"
  | emptyRandomRange => "empty_random_range"

end Fallback

/-- How often each kind of fallback was taken. -/
structure Tally where
  unresolvedVariable : Nat := 0
  typeMismatch : Nat := 0
  divisionByZero : Nat := 0
  droppedInstruction : Nat := 0
  emptyRandomRange : Nat := 0
  deriving DecidableEq, Inhabited

namespace Tally

/-- The count of one kind of fallback. -/
def count (t : Tally) : Fallback → Nat
  | .unresolvedVariable => t.unresolvedVariable
  | .typeMismatch => t.typeMismatch
  | .divisionByZero => t.divisionByZero
  | .droppedInstruction => t.droppedInstruction
  | .emptyRandomRange => t.emptyRandomRange

/-- The tally with one more fallback of a kind. -/
def bump (t : Tally) : Fallback → Tally
  | .unresolvedVariable => { t with unresolvedVariable := t.unresolvedVariable + 1 }
  | .typeMismatch => { t with typeMismatch := t.typeMismatch + 1 }
  | .divisionByZero => { t with divisionByZero := t.divisionByZero + 1 }
  | .droppedInstruction => { t with droppedInstruction := t.droppedInstruction + 1 }
  | .emptyRandomRange => { t with emptyRandomRange := t.emptyRandomRange + 1 }

/-- The kinds of fallback that were taken, with their counts. -/
def toList (t : Tally) : List (Fallback × Nat) :=
  (Fallback.all.map fun f => (f, t.count f)).filter fun entry => entry.2 != 0

theorem count_empty (f : Fallback) : ({} : Tally).count f = 0 := by
  cases f <;> rfl

theorem count_bump (t : Tally) (f g : Fallback) :
    (t.bump f).count g = t.count g + if f = g then 1 else 0 := by
  cases f <;> cases g <;> rfl

end Tally

/-- What went wrong when a fallback was taken. -/
inductive Mishap where
  /-- A variable without a value was read. -/
  | unsetVariable (name : String)
  /-- A number was divided by zero. -/
  | zeroDivisor (op : BinaryOp)
  /-- The operation takes no two numbers. -/
  | undefinedOnNumbers (op : BinaryOp)
  /-- The operation takes no two truth values. -/
  | undefinedOnBooleans (op : BinaryOp)
  /-- The operation takes no two values of these kinds. -/
  | undefinedBetween (op : BinaryOp) (left right : Kind)
  /-- There is no number in the range. -/
  | emptyRange (min max : Binary64)
  /-- The count of a loop is no number. -/
  | loopCount (kind : Kind)
  /-- An instruction got a value that it cannot use. -/
  | unusable (instruction : String) (kind : Kind)
  /-- One of the values for a new ball cannot be used. -/
  | unusableBall (x y speed heading : Kind)
  /-- A step names a program that the square does not have. -/
  | noProgram (index count : Nat)
  deriving DecidableEq

namespace Mishap

/-- The kind of fallback under which a mishap is counted. -/
def fallback : Mishap → Fallback
  | unsetVariable _ => .unresolvedVariable
  | zeroDivisor _ => .divisionByZero
  | undefinedOnNumbers _ => .typeMismatch
  | undefinedOnBooleans _ => .typeMismatch
  | undefinedBetween .. => .typeMismatch
  | emptyRange .. => .emptyRandomRange
  | loopCount _ => .typeMismatch
  | unusable .. => .droppedInstruction
  | unusableBall .. => .droppedInstruction
  | noProgram .. => .droppedInstruction

/-- The text of a mishap in the journal. -/
def message : Mishap → String
  | unsetVariable name => "Variable '" ++ name ++ "' not set, reading as 0"
  | zeroDivisor op => op.name ++ " by zero, yielding 0"
  | undefinedOnNumbers op => op.name ++ " is not defined on numbers, yielding false"
  | undefinedOnBooleans op => op.name ++ " is not defined on booleans, yielding false"
  | undefinedBetween op left right =>
    "No " ++ op.name ++ " between " ++ left.name ++ " and " ++ right.name ++ ", yielding false"
  | emptyRange min max =>
    "Empty random range [" ++ min.text ++ ", " ++ max.text ++ "), yielding min"
  | loopCount kind => "Skipping loop: count evaluated to " ++ kind.name
  | unusable instruction kind =>
    "Dropping " ++ instruction ++ " instruction: got " ++ kind.name ++ " value"
  | unusableBall x y speed heading =>
    "Dropping spawn_ball: got (" ++ x.name ++ ", " ++ y.name ++ ", " ++ speed.name ++ ", " ++
      heading.name ++ ")"
  | noProgram index count =>
    "Dropping execute_program step: no program at index " ++ toString index ++ " (have " ++
      toString count ++ ")"

end Mishap

/-- An entry of the journal. -/
inductive Notice where
  /-- A fallback was taken. -/
  | mishap (m : Mishap)
  /-- A ball hit a square; both hits are counted already. -/
  | collision (identity : String) (ballHits x y squareHits : Int)
  deriving DecidableEq

/-- The text of an entry. -/
def Notice.message : Notice → String
  | mishap m => m.message
  | collision identity ballHits x y squareHits =>
    "Ball " ++ identity ++ " hits: " ++ toString ballHits ++ ", square (" ++ toString x ++ "," ++
      toString y ++ ") hits: " ++ toString squareHits

/-- The part of an executor that evaluation reads and writes. -/
structure Engine where
  /-- The random numbers in the order in which they are drawn. -/
  source : Nat → Binary64
  /-- How many of them were drawn. -/
  drawn : Nat := 0
  /-- The fallbacks so far. -/
  tally : Tally := {}
  /-- The journal, last entry first. -/
  journal : List Notice := []

namespace Engine

/-- Write an entry into the journal. -/
def log (g : Engine) (n : Notice) : Engine := { g with journal := n :: g.journal }

/-- Count a fallback and write it into the journal. -/
def record (g : Engine) (m : Mishap) : Engine :=
  { g.log (.mishap m) with tally := g.tally.bump m.fallback }

theorem count_record (g : Engine) (m : Mishap) (f : Fallback) :
    (g.record m).tally.count f = g.tally.count f + if m.fallback = f then 1 else 0 :=
  Tally.count_bump _ _ _

/-- The next random number. -/
def next (g : Engine) : Binary64 := g.source g.drawn

/-- The engine after a draw. -/
def advance (g : Engine) : Engine := { g with drawn := g.drawn + 1 }

end Engine

end Carom
