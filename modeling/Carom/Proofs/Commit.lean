import Carom.Proofs.Interleaving

/-!
# All or nothing

A program writes the variables of a context of its own. The store gets them when the run has ended
well, all at once, and none of them if the run fails, wherever that is and whatever was assigned
by then (`Ran.AllOrNothing`). On a collision the hit is counted before the run begins, so it stays
counted in any case.

* `allOrNothing_runAndCommit`: what is left of a run that is committed.
* `keepsAllOrNothing_collide`: from that, what is left of a collision.
* `allOrNothing`: the same for each way in which a program comes to run and commit.
-/

namespace Carom

/-- What a run gives: its result or its failure. -/
def Execution.outcome {α : Type} (e : Execution α) (s : Scene) : Except HitOverflow α :=
  match e s with
  | .ok a _ => .ok a
  | .error err _ => .error err

/-- What is left on a store of a run that begins in a scene: all its variables, or nothing. -/
structure Ran.AllOrNothing (r : Ran) (s : Store) (e : Execution (List Action)) (start : Scene) :
    Prop where
  /-- The call fails iff the run does, and in the same way. -/
  result : r.result = e.outcome start
  /-- If it fails, the store is as it was. -/
  failed : ∀ err, r.result = .error err → r.executor.store = s
  /-- If it does not, the variables are those at the end of the run. -/
  ended : ∀ actions, r.result = .ok actions →
    r.executor.store = s.commit (e.final start).context

namespace Executor

/-- A run that is committed leaves all of its variables, or nothing. -/
theorem allOrNothing_runAndCommit (x : Executor) (e : Execution (List Action)) (c : Context) :
    (x.runAndCommit e c).AllOrNothing x.store e ⟨c, x.engine⟩ := by
  simp only [runAndCommit, run]
  cases ran : e ⟨c, x.engine⟩ with
  | ok actions t =>
    have outcome : e.outcome ⟨c, x.engine⟩ = .ok actions := by rw [Execution.outcome, ran]
    have final : e.final ⟨c, x.engine⟩ = t := by rw [Execution.final, ran]
    refine ⟨outcome.symm, fun err failed => ?_, fun _ _ => ?_⟩
    · cases failed
    · rw [final]
  | error err t =>
    have outcome : e.outcome ⟨c, x.engine⟩ = .error err := by rw [Execution.outcome, ran]
    refine ⟨outcome.symm, fun _ _ => rfl, fun actions ended => ?_⟩
    cases ended

/-- What is left of a collision that runs a program. -/
structure KeepsAllOrNothing (x : Executor) (p : Program) (b : Ball) (q : Position) (r : Ran) :
    Prop where
  /-- The collision fails iff the run does, and in the same way. -/
  result : r.result = p.run.outcome (x.scene b q)
  /-- If it fails, the hit of the ball and of the square is counted, and that is all. -/
  failed : ∀ err, r.result = .error err → x.store.OneHit r.executor.store b.identity q
  /-- If it does not, the hit is counted, and the variables are those at the end of the run. -/
  ended : ∀ actions, r.result = .ok actions →
    r.executor.store.SameHits (x.store.countHit b.identity q) ∧
      r.executor.store.variables = (p.run.final (x.scene b q)).context.variables

/-- A collision counts its hit before the run, whether that fails or not. -/
theorem keepsAllOrNothing_collide (x : Executor) (p : Program) (b : Ball) (q : Position) :
    x.KeepsAllOrNothing p b q (x.collide p b q) := by
  have kept : (x.collide p b q).AllOrNothing (x.store.countHit b.identity q) p.run (x.scene b q) :=
    allOrNothing_runAndCommit _ _ _
  refine ⟨kept.result, fun err failed => ?_, fun actions ended => ?_⟩
  · rw [kept.failed err failed]
    exact x.store.oneHit_countHit b.identity q
  · rw [kept.ended actions ended]
    exact ⟨⟨fun _ => rfl, fun _ => rfl⟩, rfl⟩

/-- Of a program that runs on a collision, given or active, and of one that runs in a context, the
    store keeps all variables that it leaves at its end, or none of them if it fails. -/
theorem allOrNothing (x : Executor) (p : Program) :
    (∀ b q, x.KeepsAllOrNothing p b q (x.collide p b q)) ∧
      (∀ s b q, s.activeProgram? = some p →
        x.KeepsAllOrNothing p b q (x.collideSquare s b q)) ∧
      ∀ c, (x.execute p c).AllOrNothing x.store p.run ⟨c, x.engine⟩ := by
  refine ⟨x.keepsAllOrNothing_collide p, fun s b q active => ?_,
    x.allOrNothing_runAndCommit p.run⟩
  rw [collideSquare, active]
  exact x.keepsAllOrNothing_collide p b q

/-- A program that fails inside a loop after it has assigned two variables, one of which had a
    value before. -/
theorem allOrNothing_fails_midway :
    let b := resting "a"
    let failing : Program :=
      ⟨"failing", [.setVariable "v" (.literal (.boolean true)),
        .loop (.number (Binary64.ofInt 2))
          [.ifThen (.var "v") [.setVariable "w" (.ball .x), .print (.ball .hitCount)]]], none⟩
    let s : Square := ⟨[failing], some 0, [], by decide⟩
    let x : Executor :=
      ⟨{ «variables» := Std.ExtTreeMap.empty.insert "v" (.boolean false)
         ballCounts := Std.ExtTreeMap.empty.insert "a" (2 ^ 1024) }, { source := fun _ => .zero }⟩
    let r := x.collideSquare s b ⟨0, 0⟩
    s.activeProgram? = some failing ∧
      Instruction.assignedAll failing.instructions (x.scene b ⟨0, 0⟩) = ["v", "w"] ∧
      ∃ err, r.result = .error err ∧ x.store.OneHit r.executor.store "a" ⟨0, 0⟩ ∧
        r.executor.store.variables["v"]? = some (.boolean false) ∧
        r.executor.store.variables["w"]? = none := by
  intro b failing s x r
  have active : s.activeProgram? = some failing := rfl
  have assigned : Instruction.assignedAll failing.instructions (x.scene b ⟨0, 0⟩) = ["v", "w"] := by
    decide +kernel
  have fails : r.result.isOk = false := by decide +kernel
  have kept : x.KeepsAllOrNothing failing b ⟨0, 0⟩ r :=
    (x.allOrNothing failing).2.1 s b ⟨0, 0⟩ active
  cases result : r.result with
  | ok actions =>
    rw [result] at fails
    cases fails
  | error err =>
    have hit := kept.failed err result
    refine ⟨active, assigned, err, rfl, hit, ?_, ?_⟩
    · rw [hit.variables]
      decide +kernel
    · rw [hit.variables]
      decide +kernel

end Executor

end Carom
