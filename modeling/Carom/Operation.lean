import Carom.Collision

/-!
# Operations

All that can be asked of an executor, as data, so that whole histories are lists
(`Operation`, `Executor.perform`). Operations that run something in a context give
that context back as the run leaves it, also where the run fails.
-/

namespace Carom

/-- What can be asked of an executor. -/
inductive Operation where
  /-- A ball collides with a square that runs a program. -/
  | collide (program : Program) (ball : Ball) (place : Position)
  /-- A ball collides with a square, which runs what it holds. -/
  | collideSquare (square : Square) (ball : Ball) (place : Position)
  /-- A ball collides with a square that runs a script, with an engine of its own. -/
  | collideScript (source : String) (ball : Ball) (place : Position)
  /-- Run a program in a context and commit. -/
  | execute (program : Program) (context : Context)
  /-- Run instructions in a context, without committing. -/
  | run (block : List Instruction) (context : Context)
  /-- Evaluate an expression in a context. -/
  | evaluate (expression : Expression) (context : Context)
  /-- Take the context of a ball on a square. -/
  | snapshot (ball : Ball) (place : Position)
  /-- Commit the variables of a context. -/
  | commit (context : Context)
  /-- Count a hit of a ball alone. -/
  | countBall (identity : String)
  /-- Count a hit of a square alone. -/
  | countSquare (place : Position)
  /-- Tell the hits of a ball. -/
  | ballHits (identity : String)
  /-- Tell the hits of a square. -/
  | squareHits (place : Position)
  /-- Forget the hits of a square. -/
  | resetHits (place : Position)
  /-- Forget all hits. -/
  | resetHitCounts
  /-- Forget all variables. -/
  | resetVariables
  /-- Forget everything. -/
  | resetAll

/-- What an operation answers. -/
inductive Answer where
  | nothing
  | count (n : Int)
  | value (v : Value)
  | context (c : Context)
  | actions (as : List Action)

/-- What an operation gives: its answer or its failure, the context that it ran in as
    the run leaves it, and the executor after it. -/
structure Outcome where
  result : Except ScriptFailure Answer
  context? : Option Context
  executor : Executor

namespace Executor

/-- The outcome of an operation that runs nothing. -/
def answer (x : Executor) (a : Answer) : Outcome := ⟨.ok a, none, x⟩

/-- The outcome of an operation that changes the store only. -/
def change (x : Executor) (s : Store) : Outcome :=
  ({ x with store := s } : Executor).answer .nothing

/-- The outcome of a run. -/
def ofRan (r : Ran) : Outcome :=
  ⟨(r.result.map .actions).mapError .failed, some r.context, r.executor⟩

/-- Evaluate an expression in a context. -/
def evaluate (x : Executor) (e : Expression) (c : Context) : Outcome :=
  match e.eval c x.engine with
  | .ok v g => ⟨.ok (.value v), some c, { x with engine := g }⟩
  | .error err g => ⟨.error (.failed err), some c, { x with engine := g }⟩

/-- Let a ball collide with a square that runs a script. The journal goes on, the rest
    of the engine is left alone. -/
def collideScript (x : Executor) (source : String) (b : Ball) (place : Position) : Outcome :=
  let (result, store, notices) := x.store.collideScript source b place
  { result := result.map .actions
    context? := none
    executor := ⟨store, { x.engine with journal := notices ++ x.engine.journal }⟩ }

/-- Perform an operation. -/
def perform (x : Executor) : Operation → Outcome
  | .collide p b place => ofRan (x.collide p b place)
  | .collideSquare s b place => ofRan (x.collideSquare s b place)
  | .collideScript source b place => x.collideScript source b place
  | .execute p c => ofRan (x.execute p c)
  | .run block c => ofRan (x.run (Instruction.execAll block) c)
  | .evaluate e c => x.evaluate e c
  | .snapshot b place => x.answer (.context (x.store.context b place))
  | .commit c => x.change (x.store.commit c)
  | .countBall identity =>
    let s := x.store.countBall identity
    ({ x with store := s } : Executor).answer (.count (s.ballHits identity))
  | .countSquare place =>
    let s := x.store.countSquare place
    ({ x with store := s } : Executor).answer (.count (s.squareHits place))
  | .ballHits identity => x.answer (.count (x.store.ballHits identity))
  | .squareHits place => x.answer (.count (x.store.squareHits place))
  | .resetHits place => x.change (x.store.resetHits place)
  | .resetHitCounts => x.change x.store.resetHitCounts
  | .resetVariables => x.change x.store.resetVariables
  | .resetAll => x.change x.store.resetAll

end Executor

end Carom
