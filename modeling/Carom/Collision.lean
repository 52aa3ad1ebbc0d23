import Carom.Execution
import Carom.Script.Program
import Carom.Store

/-!
# Collisions

An executor runs programs on a store with an engine. A collision counts the hit of
the ball and of the square first, then takes the context, so that a program sees a
count that includes this hit. If the run ends well, its variables are committed; if
it fails, they are not, but the hits stay counted.

Steps write no variables, so nothing is committed after them.
-/

namespace Carom

/-- A store and the engine that works on it. -/
structure Executor where
  /-- What outlives a collision. -/
  store : Store
  /-- What evaluates. -/
  engine : Engine

/-- What a run gives: its actions or its failure, the context as it leaves it, and the
    executor after it. -/
structure Ran where
  result : Except HitOverflow (List Action)
  context : Context
  executor : Executor

namespace Executor

/-- Run in a context. The store stays as it is. -/
def run (x : Executor) (e : Execution (List Action)) (c : Context) : Ran :=
  match e ⟨c, x.engine⟩ with
  | .ok actions s => ⟨.ok actions, s.context, { x with engine := s.engine }⟩
  | .error err s => ⟨.error err, s.context, { x with engine := s.engine }⟩

/-- Run in a context and commit its variables, unless the run fails. -/
def runAndCommit (x : Executor) (e : Execution (List Action)) (c : Context) : Ran :=
  let r := x.run e c
  match r.result with
  | .ok _ => { r with executor := { r.executor with store := r.executor.store.commit r.context } }
  | .error _ => r

/-- Count the hit of a ball on a square and write it into the journal. -/
def countHit (x : Executor) (b : Ball) (place : Position) : Executor :=
  let store := x.store.countHit b.identity place
  { store
    engine := x.engine.log
      (.collision b.identity (store.ballHits b.identity) place.x place.y
        (store.squareHits place)) }

/-- Let a ball collide with a square that runs a program. -/
def collide (x : Executor) (p : Program) (b : Ball) (place : Position) : Ran :=
  let x := x.countHit b place
  x.runAndCommit p.run (x.store.context b place)

/-- Let a ball collide with a square, which runs its active program, or its steps if
    none is active. -/
def collideSquare (x : Executor) (s : Square) (b : Ball) (place : Position) : Ran :=
  match s.activeProgram? with
  | some p => x.collide p b place
  | none =>
    let x := x.countHit b place
    x.run (Step.runAll s.programs s.steps) (x.store.context b place)

/-- Run a program in a context and commit its variables. No hit is counted. -/
def execute (x : Executor) (p : Program) (c : Context) : Ran := x.runAndCommit p.run c

end Executor

/-- What makes a script fail on a collision: it cannot be read, or its run fails. -/
inductive ScriptFailure where
  | unreadable (e : Script.ReadError)
  | failed (e : HitOverflow)
  deriving DecidableEq

/-- Read a script and let a ball collide with a square that runs it, on a store. The
    engine is a new one; its journal is the last part of the answer. -/
def Store.collideScript (s : Store) (source : String) (b : Ball) (place : Position) :
    Except ScriptFailure (List Action) × Store × List Notice :=
  match Script.read source with
  | .error e => (.error (.unreadable e), s, [])
  | .ok p =>
    let r := Executor.collide ⟨s, { source := fun _ => .zero }⟩ p b place
    (r.result.mapError .failed, r.executor.store, r.executor.engine.journal)

end Carom
