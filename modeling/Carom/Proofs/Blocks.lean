import Carom.Proofs.Footprint

/-!
# Induction over blocks

A block is made of a few kinds of step: it evaluates expressions, records fallbacks and assigns
variables, one step after the other. So a property of runs that all of these steps have, and that
is kept when one run follows another (`Execution.Closed`), is a property of every block
(`Instruction.closed_execAll`), whatever branches there are and however often its loops run. What
the block reads and assigns may be taken into account.
-/

namespace Carom

/-- A property of runs that is kept when one run follows another, and that all steps have which
    read nothing but `uses` and assign no other variables than `names`. -/
structure Execution.Closed (uses : List Use) (names : List String)
    (Φ : ∀ {α : Type}, Execution α → Prop) : Prop where
  pure : ∀ {α : Type} (a : α), Φ (Pure.pure a : Execution α)
  bind : ∀ {α β : Type} {e : Execution α} {f : α → Execution β}, Φ e → (∀ a, Φ (f a)) → Φ (e >>= f)
  evaluate : ∀ {e : Expression}, e.reads ⊆ uses → Φ (Execution.evaluate e)
  skip : ∀ m, Φ (Execution.skip m)
  assign : ∀ {name : String} (v : Value), name ∈ names → Φ (Execution.assign name v)

open Execution

variable {uses : List Use} {names : List String} {Φ : ∀ {α : Type}, Execution α → Prop}

/-- Such a property is kept when a run is repeated. -/
theorem Execution.Closed.repeated (closed : Closed uses names Φ) {e : Execution (List Action)}
    (h : Φ e) (n : Nat) : Φ (Execution.repeated n e) := by
  induction n with
  | zero => exact closed.pure []
  | succ n ih =>
    rw [repeated_succ]
    exact closed.bind h fun _ => closed.bind ih fun _ => closed.pure _

mutual

/-- An instruction has the property if it reads and assigns no more than is allowed. -/
theorem Instruction.closed_exec (closed : Closed uses names Φ) :
    (i : Instruction) → i.reads ⊆ uses → i.targets ⊆ names → Φ i.exec
  -- What is evaluated and the blocks that may run are parts of the instruction, so it reads and
  -- assigns all that they do.
  | .setSpeed value, reads, _ => by
    rw [Instruction.exec]
    refine closed.bind (closed.evaluate reads) fun v => ?_
    split
    · exact closed.pure _
    · exact closed.skip _
  | .setDirection value, reads, _ => by
    rw [Instruction.exec]
    refine closed.bind (closed.evaluate reads) fun v => ?_
    split
    · exact closed.pure _
    · exact closed.skip _
  | .bounce, _, _ => closed.pure _
  | .stop, _, _ => closed.pure _
  | .setVariable name value, reads, targets => by
    rw [Instruction.exec]
    obtain ⟨readsValue, -⟩ := List.append_subset.1 reads
    exact closed.bind (closed.evaluate readsValue) fun v =>
      closed.assign v (targets (List.mem_singleton_self name))
  | .ifThen condition thenBlock, reads, targets => by
    rw [Instruction.exec]
    obtain ⟨readsCondition, readsThen⟩ := List.append_subset.1 reads
    refine closed.bind (closed.evaluate readsCondition) fun v => ?_
    split
    · exact Instruction.closed_execAll closed thenBlock readsThen targets
    · exact closed.pure _
  | .ifElse condition thenBlock elseBlock, reads, targets => by
    rw [Instruction.exec]
    obtain ⟨readsCondition, readsBlocks⟩ := List.append_subset.1 reads
    obtain ⟨readsThen, readsElse⟩ := List.append_subset.1 readsBlocks
    obtain ⟨-, targetsBlocks⟩ := List.append_subset.1 targets
    obtain ⟨targetsThen, targetsElse⟩ := List.append_subset.1 targetsBlocks
    refine closed.bind (closed.evaluate readsCondition) fun v => ?_
    split
    · exact Instruction.closed_execAll closed thenBlock readsThen targetsThen
    · exact Instruction.closed_execAll closed elseBlock readsElse targetsElse
  | .loop count body, reads, targets => by
    rw [Instruction.exec]
    obtain ⟨readsCount, readsBody⟩ := List.append_subset.1 reads
    refine closed.bind (closed.evaluate readsCount) fun v => ?_
    split
    · exact closed.repeated (Instruction.closed_execAll closed body readsBody targets) _
    · exact closed.skip _
  | .playSample index, reads, _ => by
    rw [Instruction.exec]
    refine closed.bind (closed.evaluate reads) fun v => ?_
    split
    · split
      · exact closed.pure _
      · exact closed.skip _
    · exact closed.skip _
  | .spawnBall x y speed direction, reads, _ => by
    rw [Instruction.exec]
    obtain ⟨readsX, reads⟩ := List.append_subset.1 reads
    obtain ⟨readsY, reads⟩ := List.append_subset.1 reads
    obtain ⟨readsSpeed, readsDirection⟩ := List.append_subset.1 reads
    refine closed.bind (closed.evaluate readsX) fun _ =>
      closed.bind (closed.evaluate readsY) fun _ =>
      closed.bind (closed.evaluate readsSpeed) fun _ =>
      closed.bind (closed.evaluate readsDirection) fun _ => ?_
    split
    · exact closed.pure _
    · exact closed.skip _
  | .print value, reads, _ => by
    rw [Instruction.exec]
    exact closed.bind (closed.evaluate reads) fun _ => closed.pure _

/-- A block has the property if it reads and assigns no more than is allowed. -/
theorem Instruction.closed_execAll (closed : Closed uses names Φ) :
    (block : List Instruction) → Instruction.readsAll block ⊆ uses →
      Instruction.targetsAll block ⊆ names → Φ (Instruction.execAll block)
  | [], _, _ => closed.pure _
  | i :: rest, reads, targets => by
    rw [Instruction.execAll]
    obtain ⟨readsFirst, readsRest⟩ := List.append_subset.1 reads
    obtain ⟨targetsFirst, targetsRest⟩ := List.append_subset.1 targets
    exact closed.bind (Instruction.closed_exec closed i readsFirst targetsFirst) fun _ =>
      closed.bind (Instruction.closed_execAll closed rest readsRest targetsRest) fun _ =>
        closed.pure _

end

end Carom
