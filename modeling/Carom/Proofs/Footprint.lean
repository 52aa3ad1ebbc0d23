import Carom.Proofs.Frame

/-!
# The footprint of a program

What a program may read (`Instruction.readsAll`) and which variables it may assign
(`Instruction.targetsAll`), whatever branches it takes and however often its loops run. Both
are gathered from its text (`Instruction.gather`).

A run assigns no variable but its targets (`assignedAll_subset_targetsAll`), so it leaves all
others as they are (`writesOnly_targetsAll`).
-/

namespace Carom

/-- What an expression can read. -/
inductive Use where
  /-- The value of a variable. -/
  | var (name : String)
  /-- A property of the ball that hits. -/
  | ball (property : BallProperty)
  /-- A random number. -/
  | draw
  deriving DecidableEq

/-- What an expression reads; a random range reads a random number even if it is empty. -/
def Expression.reads : Expression → List Use
  | literal _ => []
  | var name => [.var name]
  | binary _ left right => left.reads ++ right.reads
  | ball property => [.ball property]
  | random _ _ => [.draw]

namespace Instruction

mutual

/-- What is gathered from the expressions of an instruction and from the names that it
    assigns, at every depth. -/
def gather {α : Type} (value : Expression → List α) (target : String → List α) :
    Instruction → List α
  | setSpeed v => value v
  | setDirection v => value v
  | bounce => []
  | stop => []
  | setVariable name v => value v ++ target name
  | ifThen condition thenBlock => value condition ++ gatherAll value target thenBlock
  | ifElse condition thenBlock elseBlock =>
    value condition ++ (gatherAll value target thenBlock ++ gatherAll value target elseBlock)
  | loop count body => value count ++ gatherAll value target body
  | playSample index => value index
  | spawnBall x y speed direction =>
    value x ++ (value y ++ (value speed ++ value direction))
  | print v => value v

/-- What is gathered from the instructions of a block. -/
def gatherAll {α : Type} (value : Expression → List α) (target : String → List α) :
    List Instruction → List α
  | [] => []
  | i :: rest => i.gather value target ++ gatherAll value target rest

end

/-- What an instruction may read. -/
def reads (i : Instruction) : List Use := i.gather Expression.reads fun _ => []

/-- What a block may read. -/
def readsAll (block : List Instruction) : List Use := gatherAll Expression.reads (fun _ => []) block

/-- The variables that an instruction may assign. -/
def targets (i : Instruction) : List String := i.gather (fun _ => []) fun name => [name]

/-- The variables that a block may assign. -/
def targetsAll (block : List Instruction) : List String :=
  gatherAll (fun _ => []) (fun name => [name]) block

end Instruction

/-! ## What is assigned is a target -/

namespace Execution

variable {α : Type} {e : Execution α} {targets : List String}

/-- What is assigned behind a run is a target if everything there is. -/
theorem thenAssigned_subset {names : α → Scene → List String}
    (h : ∀ a s, names a s ⊆ targets) (s : Scene) : e.thenAssigned names s ⊆ targets := by
  rw [thenAssigned]
  split
  · exact h _ _
  · exact List.nil_subset _

/-- What is assigned over and over is a target if it is each time. -/
theorem repeatedlyAssigned_subset {names : Scene → List String} (h : ∀ s, names s ⊆ targets)
    (n : Nat) (s : Scene) : repeatedlyAssigned e names n s ⊆ targets := by
  induction n generalizing s with
  | zero => exact List.nil_subset _
  | succ n ih => exact List.append_subset.2 ⟨h s, thenAssigned_subset (fun _ => ih) s⟩

end Execution

namespace Instruction

open Execution

mutual

/-- An instruction assigns no variable but its targets. -/
theorem assigned_subset_targets : (i : Instruction) → (s : Scene) → i.assigned s ⊆ i.targets
  -- An assignment has one target, and the rest recurses into the blocks of the instruction.
  | setVariable name value, s => by
    rw [assigned]
    exact thenAssigned_subset (fun _ _ => List.Subset.refl _) s
  | ifThen condition thenBlock, s => by
    rw [assigned]
    refine thenAssigned_subset (fun v t => ?_) s
    split
    · exact assignedAll_subset_targetsAll thenBlock t
    · exact List.nil_subset _
  | ifElse condition thenBlock elseBlock, s => by
    rw [assigned]
    refine thenAssigned_subset (fun v t => ?_) s
    split
    · refine List.Subset.trans (assignedAll_subset_targetsAll thenBlock t) ?_
      exact List.subset_append_left _ _
    · refine List.Subset.trans (assignedAll_subset_targetsAll elseBlock t) ?_
      exact List.subset_append_right _ _
  | loop count body, s => by
    rw [assigned]
    refine thenAssigned_subset (fun v t => ?_) s
    split
    · exact repeatedlyAssigned_subset (assignedAll_subset_targetsAll body) _ t
    · exact List.nil_subset _
  | setSpeed _, _ => List.nil_subset _
  | setDirection _, _ => List.nil_subset _
  | bounce, _ => List.nil_subset _
  | stop, _ => List.nil_subset _
  | playSample _, _ => List.nil_subset _
  | spawnBall .., _ => List.nil_subset _
  | print _, _ => List.nil_subset _

/-- A block assigns no variable but its targets. -/
theorem assignedAll_subset_targetsAll : (block : List Instruction) → (s : Scene) →
    assignedAll block s ⊆ targetsAll block
  | [], _ => List.nil_subset _
  | i :: rest, s => by
    rw [assignedAll]
    refine List.append_subset.2 ⟨?_, thenAssigned_subset (fun _ t => ?_) s⟩
    · refine List.Subset.trans (assigned_subset_targets i s) ?_
      exact List.subset_append_left _ _
    · refine List.Subset.trans (assignedAll_subset_targetsAll rest t) ?_
      exact List.subset_append_right _ _

end

/-- A run writes no variable but the targets of its block. -/
theorem writesOnly_targetsAll (block : List Instruction) :
    (execAll block).WritesOnly fun _ => targetsAll block :=
  fun s name h => writesOnly_execAll block s name fun assigned =>
    h (assignedAll_subset_targetsAll block s assigned)

end Instruction

end Carom
