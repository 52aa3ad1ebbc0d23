import Carom.Action
import Carom.Evaluation
import Carom.Square

/-!
# Execution

A run of instructions gives the actions that they ask for, in order, and may write
variables. An instruction whose value is of the wrong kind asks for nothing, which
is recorded; no instruction stops a run. If the evaluation of an expression fails,
the run ends there and the variables keep what was written before.

Steps (`Step.runAll`) need no evaluation: those whose trigger is the hit count of
the square ask for their action.
-/

namespace Carom

/-- What a run reads and writes. -/
structure Scene where
  /-- The world as the run sees it. -/
  context : Context
  /-- The engine that evaluates. -/
  engine : Engine

/-- A run changes the scene, also where it fails. -/
abbrev Execution := EStateM HitOverflow Scene

namespace Execution

/-- The value of an expression in the context of the run. -/
def evaluate (e : Expression) : Execution Value := fun s =>
  match e.eval s.context s.engine with
  | .ok v g => .ok v { s with engine := g }
  | .error x g => .error x { s with engine := g }

/-- Record a fallback and ask for nothing. -/
def skip (m : Mishap) : Execution (List Action) := fun s =>
  .ok [] { s with engine := s.engine.record m }

/-- Set a variable. -/
def assign (name : String) (v : Value) : Execution (List Action) := fun s =>
  .ok [] { s with context := s.context.set name v }

/-- The actions of `n` runs, after those in `done`, which holds the last one
    first. -/
def repeatAfter (run : Execution (List Action)) : Nat → List Action → Execution (List Action)
  | 0, done => pure done.reverse
  | n + 1, done => do
    let actions ← run
    repeatAfter run n (actions.reverseAux done)

/-- The actions of `n` runs, one after the other. -/
def repeated (n : Nat) (run : Execution (List Action)) : Execution (List Action) :=
  repeatAfter run n []

theorem repeatAfter_eq (run : Execution (List Action)) (n : Nat) (done : List Action) :
    repeatAfter run n done = (do
      let more ← repeated n run
      pure (done.reverse ++ more)) := by
  unfold repeated
  induction n generalizing done with
  | zero =>
    funext s
    simp [repeatAfter, pure, EStateM.pure, bind, EStateM.bind]
  | succ n ih =>
    funext s
    simp only [repeatAfter, bind, EStateM.bind]
    cases run s with
    | error e t => rfl
    | ok actions t =>
      dsimp only
      rw [ih (actions.reverseAux done), ih (actions.reverseAux [])]
      simp only [bind, EStateM.bind]
      cases repeatAfter run n [] t with
      | error e u => rfl
      | ok more u => simp [pure, EStateM.pure, List.reverseAux_eq]

@[simp] theorem repeated_zero (run : Execution (List Action)) : repeated 0 run = pure [] := rfl

/-- One run, and then the others. -/
theorem repeated_succ (n : Nat) (run : Execution (List Action)) :
    repeated (n + 1) run = (do
      let actions ← run
      let more ← repeated n run
      pure (actions ++ more)) := by
  funext s
  simp only [repeated, repeatAfter, bind, EStateM.bind]
  cases run s with
  | error e t => rfl
  | ok actions t =>
    dsimp only
    rw [repeatAfter_eq]
    simp [repeated, bind, EStateM.bind, List.reverseAux_eq]

end Execution

open Execution in
mutual

/-- Run one instruction. -/
def Instruction.exec : Instruction → Execution (List Action)
  | .setSpeed value => do
    match ← evaluate value with
    | .number speed => pure [.setSpeed speed]
    | v => skip (.unusable (Instruction.setSpeed value).kind v.kind)
  | .setDirection value => do
    match ← evaluate value with
    | .direction d => pure [.setDirection d]
    | v => skip (.unusable (Instruction.setDirection value).kind v.kind)
  | .bounce => pure [.bounce]
  | .stop => pure [.stop]
  | .setVariable name value => do
    let v ← evaluate value
    assign name v
  | .ifThen condition thenBlock => do
    let v ← evaluate condition
    if v.isTrue then Instruction.execAll thenBlock else pure []
  | .ifElse condition thenBlock elseBlock => do
    let v ← evaluate condition
    if v.isTrue then Instruction.execAll thenBlock else Instruction.execAll elseBlock
  | .loop count body => do
    match ← evaluate count with
    | .number n => repeated n.iterations (Instruction.execAll body)
    | v => skip (.loopCount v.kind)
  | .playSample index => do
    let v ← evaluate index
    match v with
    | .number n => match n.index? with
      | some i => pure [.playSample i]
      | none => skip (.unusable (Instruction.playSample index).kind v.kind)
    | _ => skip (.unusable (Instruction.playSample index).kind v.kind)
  | .spawnBall x y speed direction => do
    let vx ← evaluate x
    let vy ← evaluate y
    let vs ← evaluate speed
    let vd ← evaluate direction
    match vx, vy, vs, vd with
    | .number nx, .number ny, .number ns, .direction d => pure [.spawnBall nx ny ns d]
    | _, _, _, _ => skip (.unusableBall vx.kind vy.kind vs.kind vd.kind)
  | .print value => do
    let v ← evaluate value
    pure [.print v.text]

/-- Run a block from top to bottom. -/
def Instruction.execAll : List Instruction → Execution (List Action)
  | [] => pure []
  | i :: rest => do
    let actions ← i.exec
    let more ← Instruction.execAll rest
    pure (actions ++ more)

end

/-- Run the instructions of a program. -/
def Program.run (p : Program) : Execution (List Action) := Instruction.execAll p.instructions

/-- The action of an effect; a program that the square does not have is dropped. -/
def Effect.run (programs : List Program) (effect : Effect) : Execution (List Action) :=
  match effect with
  | .bounce => pure [.bounce]
  | .stop => pure [.stop]
  | .multiplySpeed factor => fun s => .ok [.setSpeed (s.context.ballSpeed * factor)] s
  | .changeDirection d => pure [.setDirection d]
  | .playSample i => pure [.playSample i]
  | .execute i => match programs[i]? with
    | some p => pure [.execute p]
    | none => Execution.skip (.noProgram i programs.length)

/-- Whether a step takes place at the hit of the square that the context tells. -/
def Step.fires (c : Context) (s : Step) : Bool := (s.trigger : Int) == c.squareHits

/-- Run the steps whose hit it is, in the order of the table. -/
def Step.runAll (programs : List Program) : List Step → Execution (List Action)
  | [] => pure []
  | step :: rest => do
    let fires ← fun s => .ok (step.fires s.context) s
    let actions ← if fires then step.effect.run programs else pure []
    let more ← Step.runAll programs rest
    pure (actions ++ more)

end Carom
