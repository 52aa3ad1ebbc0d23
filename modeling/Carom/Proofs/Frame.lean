import Carom.Execution

/-!
# What a run writes

The variables that a run assigns depend on the branches that it takes, on how often its
loops run and on where it fails. `Instruction.assignedAll` lists them in the order of the
assignments, for a run that begins in a given scene. All other variables are left as they
were, whether the run ends well or fails (`writesOnly_execAll`).
-/

namespace Carom

/-- The value of a variable, if it has one. -/
def Scene.value? (s : Scene) (name : String) : Option Value := s.context.variables[name]?

namespace Execution

variable {α β : Type}

/-- The scene in which a run ends, or in which it fails. -/
def final (e : Execution α) (s : Scene) : Scene :=
  match e s with
  | .ok _ t => t
  | .error _ t => t

/-- What is assigned after a run, if the run ends well. -/
def thenAssigned (e : Execution α) (names : α → Scene → List String) (s : Scene) : List String :=
  match e s with
  | .ok a t => names a t
  | .error _ _ => []

/-- What is assigned by `n` runs. -/
def repeatedlyAssigned (e : Execution α) (names : Scene → List String) : Nat → Scene → List String
  | 0, _ => []
  | n + 1, s => names s ++ e.thenAssigned (fun _ => repeatedlyAssigned e names n) s

end Execution

open Execution in
mutual

/-- The variables that an instruction assigns in a scene, one for each assignment. -/
def Instruction.assigned : Instruction → Scene → List String
  | .setVariable name value => (evaluate value).thenAssigned fun _ _ => [name]
  | .ifThen condition thenBlock => (evaluate condition).thenAssigned fun v =>
    if v.isTrue then Instruction.assignedAll thenBlock else fun _ => []
  | .ifElse condition thenBlock elseBlock => (evaluate condition).thenAssigned fun v =>
    if v.isTrue then Instruction.assignedAll thenBlock else Instruction.assignedAll elseBlock
  | .loop count body => (evaluate count).thenAssigned fun
    | .number n =>
      repeatedlyAssigned (Instruction.execAll body) (Instruction.assignedAll body) n.iterations
    | _ => fun _ => []
  | _ => fun _ => []

/-- The variables that a block assigns in a scene. -/
def Instruction.assignedAll : List Instruction → Scene → List String
  | [] => fun _ => []
  | i :: rest => fun s =>
    i.assigned s ++ i.exec.thenAssigned (fun _ => Instruction.assignedAll rest) s

end

namespace Execution

variable {α β : Type}

/-- A run that writes no variables but those that `names` tells. -/
def WritesOnly (e : Execution α) (names : Scene → List String) : Prop :=
  ∀ s name, name ∉ names s → (e.final s).value? name = s.value? name

theorem writesOnly_pure (a : α) (names : Scene → List String) :
    WritesOnly (pure a : Execution α) names := fun _ _ _ => rfl

theorem writesOnly_skip (m : Mishap) (names : Scene → List String) :
    (skip m).WritesOnly names := fun _ _ _ => rfl

/-- An assignment writes its variable. -/
theorem writesOnly_assign (name : String) (v : Value) :
    (assign name v).WritesOnly fun _ => [name] := by
  intro s other h
  have different : name ≠ other := fun same => h (by simp [same])
  simp [assign, final, Scene.value?, Context.set, Std.ExtTreeMap.getElem?_insert, different]

/-- One run after another writes what either of them writes. -/
theorem WritesOnly.bind {e : Execution α} {f : α → Execution β} {names : Scene → List String}
    {more : α → Scene → List String} (he : e.WritesOnly names)
    (hf : ∀ a, (f a).WritesOnly (more a)) :
    WritesOnly (e >>= f) fun s => names s ++ e.thenAssigned more s := by
  intro s name h
  obtain ⟨notFirst, notThen⟩ := not_or.1 (fun either => h (List.mem_append.2 either))
  have first := he s name notFirst
  cases run : e s with
  | ok a t =>
    simp only [thenAssigned, run] at notThen
    simp only [final, run] at first
    rw [← first, ← hf a t name notThen]
    simp only [final, Bind.bind, EStateM.bind, run]
  | error err t =>
    -- The second run does not begin, so the names of the first one are all there are.
    simp only [final, run] at first
    rw [← first]
    simp only [final, Bind.bind, EStateM.bind, run]

/-- An evaluation writes nothing. -/
theorem writesOnly_evaluate (value : Expression) : (evaluate value).WritesOnly fun _ => [] := by
  intro s name _
  simp only [final, evaluate]
  cases value.eval s.context s.engine <;> rfl

/-- What follows an evaluation writes what it writes in the scene that the evaluation leaves. -/
theorem writesOnly_evaluate_bind {value : Expression} {f : Value → Execution β}
    {more : Value → Scene → List String} (hf : ∀ v, (f v).WritesOnly (more v)) :
    WritesOnly (evaluate value >>= f) ((evaluate value).thenAssigned more) :=
  (writesOnly_evaluate value).bind hf

/-- What only evaluates and goes on to write nothing writes nothing. -/
theorem writesNothing_evaluate_bind {value : Expression} {f : Value → Execution β}
    (hf : ∀ v, (f v).WritesOnly fun _ => []) :
    WritesOnly (evaluate value >>= f) fun _ => [] := by
  intro s name h
  refine writesOnly_evaluate_bind hf s name ?_
  rw [thenAssigned]
  split <;> exact h

/-- To give another result than a run does makes no difference to what it writes. -/
theorem WritesOnly.bind_pure {e : Execution α} {names : Scene → List String}
    (he : e.WritesOnly names) (f : α → β) : WritesOnly (e >>= fun a => pure (f a)) names := by
  intro s name h
  rw [← he s name h]
  simp only [final, Bind.bind, EStateM.bind, pure, EStateM.pure]
  cases e s <;> rfl

/-- Repeated runs write what each of them writes, where it begins. -/
theorem writesOnly_repeated {e : Execution (List Action)} {names : Scene → List String}
    (he : e.WritesOnly names) (n : Nat) :
    (repeated n e).WritesOnly (repeatedlyAssigned e names n) := by
  induction n with
  | zero => exact writesOnly_pure [] _
  | succ n ih =>
    rw [repeated_succ]
    exact he.bind fun actions => ih.bind_pure fun more => actions ++ more

end Execution

open Execution

mutual

/-- An instruction writes what it assigns. -/
theorem Instruction.writesOnly_exec :
    (i : Instruction) → i.exec.WritesOnly i.assigned
  -- Only an assignment writes by itself. A branch writes what the block writes that it takes, and a
  -- loop what its turns do.
  | .setSpeed value => by
    rw [Instruction.exec]
    refine writesNothing_evaluate_bind fun v => ?_
    split
    · exact writesOnly_pure _ _
    · exact writesOnly_skip _ _
  | .setDirection value => by
    rw [Instruction.exec]
    refine writesNothing_evaluate_bind fun v => ?_
    split
    · exact writesOnly_pure _ _
    · exact writesOnly_skip _ _
  | .bounce => writesOnly_pure _ _
  | .stop => writesOnly_pure _ _
  | .setVariable name value => by
    rw [Instruction.exec, Instruction.assigned]
    exact writesOnly_evaluate_bind fun v => writesOnly_assign name v
  | .ifThen condition thenBlock => by
    rw [Instruction.exec, Instruction.assigned]
    refine writesOnly_evaluate_bind fun v => ?_
    split
    · exact Instruction.writesOnly_execAll thenBlock
    · exact writesOnly_pure _ _
  | .ifElse condition thenBlock elseBlock => by
    rw [Instruction.exec, Instruction.assigned]
    refine writesOnly_evaluate_bind fun v => ?_
    split
    · exact Instruction.writesOnly_execAll thenBlock
    · exact Instruction.writesOnly_execAll elseBlock
  | .loop count body => by
    rw [Instruction.exec, Instruction.assigned]
    refine writesOnly_evaluate_bind fun v => ?_
    cases v with
    | number n => exact writesOnly_repeated (Instruction.writesOnly_execAll body) _
    | _ => exact writesOnly_skip _ _
  | .playSample index => by
    rw [Instruction.exec]
    refine writesNothing_evaluate_bind fun v => ?_
    split
    · split
      · exact writesOnly_pure _ _
      · exact writesOnly_skip _ _
    · exact writesOnly_skip _ _
  | .spawnBall x y speed direction => by
    rw [Instruction.exec]
    refine writesNothing_evaluate_bind fun _ => writesNothing_evaluate_bind fun _ =>
      writesNothing_evaluate_bind fun _ => writesNothing_evaluate_bind fun _ => ?_
    split
    · exact writesOnly_pure _ _
    · exact writesOnly_skip _ _
  | .print value => by
    rw [Instruction.exec]
    exact writesNothing_evaluate_bind fun _ => writesOnly_pure _ _

/-- A block writes what it assigns. -/
theorem Instruction.writesOnly_execAll :
    (block : List Instruction) →
      (Instruction.execAll block).WritesOnly (Instruction.assignedAll block)
  | [] => writesOnly_pure _ _
  | i :: rest => by
    rw [Instruction.execAll, Instruction.assignedAll]
    exact i.writesOnly_exec.bind fun actions =>
      (Instruction.writesOnly_execAll rest).bind_pure fun more => actions ++ more

end

end Carom
