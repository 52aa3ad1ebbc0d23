import Carom.Proofs.Steps

/-!
# Blocks as the instructions that they come to

A block runs as its parts do, one after the other (`execAll_append`). So a branch may give way to
the block that it takes, and a loop to its body as often as the count says, once the condition or
the count has been evaluated (`Instruction.expand`). What is left is a list again, to which the
same applies; a run is the course of such steps (`Instruction.Course`), in which each instruction
stands that is executed, at whatever depth, as often as it is executed.

* `execAll_cons_eq_expand`: an instruction may be replaced by what it expands to.
* `execAll_eq_iff_course`: so a run gives what its course does, and each run has one.
* `Course.induction_ok`: what each step of a run preserves, a run that ends well preserves.
* `execAll_of_replaces`: blocks that run alike can stand for each other at every depth.
* `runsUnrolled`: all this of every scene.
-/

namespace Carom

/-- If one run after another ends well, both do. -/
theorem Execution.exists_of_bind_eq_ok {α β : Type} {e : Execution α} {f : α → Execution β}
    {s u : Scene} {b : β} (h : (e >>= f) s = .ok b u) : ∃ a t, e s = .ok a t ∧ f a t = .ok b u := by
  simp only [bind, EStateM.bind] at h
  cases first : e s with
  | ok a t =>
    rw [first] at h
    exact ⟨a, t, rfl, h⟩
  | error err t =>
    rw [first] at h
    cases h

/-- If the first run fails, the second one does not begin. -/
theorem Execution.bind_of_error {α β : Type} {e : Execution α} {f : α → Execution β} {s t : Scene}
    {err : HitOverflow} (h : e s = .error err t) : (e >>= f) s = .error err t := by
  simp only [bind, EStateM.bind, h]

theorem Value.isTrue_iff {v : Value} : v.isTrue = true ↔ v = .boolean true := by
  cases v <;> simp [isTrue]

open Execution

namespace Instruction

/-! ## What an instruction expands to -/

/-- What an instruction does by itself: its actions, and the block that takes its place. -/
def expand : Instruction → Execution (List Action × List Instruction)
  | ifThen condition thenBlock => do
    let v ← evaluate condition
    pure ([], if v.isTrue then thenBlock else [])
  | ifElse condition thenBlock elseBlock => do
    let v ← evaluate condition
    pure ([], if v.isTrue then thenBlock else elseBlock)
  | loop count body => do
    match ← evaluate count with
    | .number n => pure ([], (List.replicate n.iterations body).flatten)
    | v => do
      let actions ← skip (.loopCount v.kind)
      pure (actions, [])
  | i => do
    let actions ← i.exec
    pure (actions, [])

/-- The blocks that can take the place of an instruction. -/
inductive GivesWay : Instruction → List Instruction → Prop
  | toNothing (i : Instruction) : GivesWay i []
  | ifThen (condition : Expression) (thenBlock : List Instruction) :
    GivesWay (.ifThen condition thenBlock) thenBlock
  | ifElse_true (condition : Expression) (thenBlock elseBlock : List Instruction) :
    GivesWay (.ifElse condition thenBlock elseBlock) thenBlock
  | ifElse_false (condition : Expression) (thenBlock elseBlock : List Instruction) :
    GivesWay (.ifElse condition thenBlock elseBlock) elseBlock
  | loop (count : Expression) (body : List Instruction) (n : Nat) :
    GivesWay (.loop count body) (List.replicate n body).flatten

/-- What an instruction expands to can take its place. -/
theorem givesWay_of_expand {i : Instruction} {s t : Scene} {actions : List Action}
    {block : List Instruction} (h : i.expand s = .ok (actions, block) t) : i.GivesWay block := by
  cases i with
  | ifThen condition thenBlock =>
    obtain ⟨v, u, -, taken⟩ := exists_of_bind_eq_ok h
    cases taken
    split
    · exact .ifThen condition thenBlock
    · exact .toNothing _
  | ifElse condition thenBlock elseBlock =>
    obtain ⟨v, u, -, taken⟩ := exists_of_bind_eq_ok h
    cases taken
    split
    · exact .ifElse_true condition thenBlock elseBlock
    · exact .ifElse_false condition thenBlock elseBlock
  | loop count body =>
    -- Only a number has iterations; a loop that is skipped gives way to nothing.
    obtain ⟨v, u, -, taken⟩ := exists_of_bind_eq_ok h
    cases v with
    | number n =>
      cases taken
      exact .loop count body n.iterations
    | _ =>
      cases taken
      exact .toNothing _
  | _ =>
    obtain ⟨done, u, -, plain⟩ := exists_of_bind_eq_ok h
    cases plain
    exact .toNothing _

/-- Two blocks one after the other are one block. -/
theorem execAll_append (first second : List Instruction) :
    execAll (first ++ second) = (do
      let actions ← execAll first
      let more ← execAll second
      pure (actions ++ more)) := by
  induction first with
  | nil => simp [execAll]
  | cons i rest ih =>
    simp only [List.cons_append, execAll, ih, bind_assoc, pure_bind, List.append_assoc]

/-- To run a block several times is to run the block that repeats it. -/
theorem repeated_execAll (n : Nat) (body : List Instruction) :
    repeated n (execAll body) = execAll (List.replicate n body).flatten := by
  induction n with
  | zero => rfl
  | succ n ih => rw [repeated_succ, ih, List.replicate_succ, List.flatten_cons, execAll_append]

/-- An instruction does what it does by itself, and then runs the block that takes its place. -/
theorem exec_eq_expand (i : Instruction) :
    i.exec = (do
      let (actions, block) ← i.expand
      let more ← execAll block
      pure (actions ++ more)) := by
  cases i with
  | ifThen condition thenBlock =>
    simp only [exec, expand, bind_assoc, pure_bind]
    refine bind_congr fun v => ?_
    split <;> simp [execAll]
  | ifElse condition thenBlock elseBlock =>
    simp only [exec, expand, bind_assoc, pure_bind]
    refine bind_congr fun v => ?_
    split <;> simp
  | loop count body =>
    simp only [exec, expand, bind_assoc]
    refine bind_congr fun v => ?_
    cases v with
    | number n => simp [repeated_execAll]
    | _ => simp [execAll]
  | _ => simp [expand, execAll]

/-- The actions of the block that takes the place of an instruction stand where it stood. -/
theorem execAll_cons_eq_expand (i : Instruction) (rest : List Instruction) :
    execAll (i :: rest) = (do
      let (actions, block) ← i.expand
      let more ← execAll (block ++ rest)
      pure (actions ++ more)) := by
  simp only [execAll, exec_eq_expand, execAll_append, bind_assoc, pure_bind, List.append_assoc]

/-! ## The course of a run -/

/-- What a run gives and the scene in which it ends, or its failure and the scene in which it
    fails. -/
abbrev Result := EStateM.Result HitOverflow Scene (List Action)

/-- The result of a run with these actions before it. -/
def Result.prepend (actions : List Action) : Result → Result
  | .ok more t => .ok (actions ++ more) t
  | .error e t => .error e t

/-- The course of a run: a block, the scene in which it begins, all instructions that are executed,
    each with the scene in which it is, and the result. The first instruction of the block is
    executed, then what it expands to together with the rest of the block. -/
inductive Course : List Instruction → Scene → List (Scene × Instruction) → Result → Prop
  | done {s : Scene} : Course [] s [] (.ok [] s)
  | fail {i : Instruction} {rest : List Instruction} {s t : Scene} {e : HitOverflow} :
    i.expand s = .error e t → Course (i :: rest) s [(s, i)] (.error e t)
  | next {i : Instruction} {rest block : List Instruction} {s t : Scene} {actions : List Action}
      {trace : List (Scene × Instruction)} {r : Result} :
    i.expand s = .ok (actions, block) t → Course (block ++ rest) t trace r →
      Course (i :: rest) s ((s, i) :: trace) (r.prepend actions)

/-- A run gives what its course does. -/
theorem Course.execAll_eq {block : List Instruction} {s : Scene}
    {trace : List (Scene × Instruction)} {r : Result} (course : Course block s trace r) :
    execAll block s = r := by
  induction course with
  | done => rfl
  | fail failed =>
    rw [execAll_cons_eq_expand]
    simp only [bind, EStateM.bind, failed]
  | @next i rest block s t actions trace r expanded _ ih =>
    rw [execAll_cons_eq_expand]
    simp only [bind, EStateM.bind, expanded, ih]
    cases r <;> rfl

/-- Induction on a course that ends well: there is nothing to execute, or the first instruction is
    executed and the hypothesis is about what is left. -/
@[elab_as_elim]
theorem Course.induction_ok
    {motive : (block : List Instruction) → (s : Scene) → (trace : List (Scene × Instruction)) →
      (actions : List Action) → (t : Scene) → Course block s trace (.ok actions t) → Prop}
    (done : ∀ s, motive [] s [] [] s .done)
    (next : ∀ {i rest block s u first trace more t}
      (expanded : i.expand s = .ok (first, block) u)
      (later : Course (block ++ rest) u trace (.ok more t)), motive _ u trace more t later →
      motive (i :: rest) s ((s, i) :: trace) (first ++ more) t (.next expanded later))
    {block : List Instruction} {s : Scene} {trace : List (Scene × Instruction)}
    {actions : List Action} {t : Scene} (course : Course block s trace (.ok actions t)) :
    motive block s trace actions t course := by
  -- The result has to be a variable: that of a step is put together by `prepend`.
  suffices general : ∀ r (course : Course block s trace r) (ended : r = .ok actions t),
      motive block s trace actions t (ended ▸ course) from general _ course rfl
  intro r course
  induction course generalizing actions t with
  | done =>
    rintro ⟨⟩
    exact done _
  | fail => exact nofun
  | @next i rest block s u first trace r expanded later ih =>
    intro ended
    cases r with
    | ok more v =>
      cases ended
      exact next expanded later (ih later rfl)
    | error err v => cases ended

/-- A block that comes to an end, wherever it begins. -/
def Ends (block : List Instruction) : Prop := ∀ s, ∃ trace r, Course block s trace r

theorem ends_nil : Ends [] := fun s => ⟨_, _, .done (s := s)⟩

/-- A block comes to an end if its first instruction always expands to something that does. -/
theorem ends_cons_of_expand {i : Instruction} {rest : List Instruction}
    (h : ∀ s actions block t, i.expand s = .ok (actions, block) t → Ends (block ++ rest)) :
    Ends (i :: rest) := by
  intro s
  cases expanded : i.expand s with
  | ok a t =>
    obtain ⟨trace, r, later⟩ := h s a.1 a.2 t expanded t
    exact ⟨_, _, .next expanded later⟩
  | error e t => exact ⟨_, _, .fail expanded⟩

/-- Repetitions come to an end if what is repeated adds no endless run. -/
theorem ends_replicate {body rest : List Instruction} (h : ∀ rest, Ends rest → Ends (body ++ rest))
    (ends : Ends rest) (n : Nat) : Ends ((List.replicate n body).flatten ++ rest) := by
  induction n with
  | zero => exact ends
  | succ n ih =>
    rw [List.replicate_succ, List.flatten_cons, List.append_assoc]
    exact h _ ih

mutual

/-- An instruction adds no endless run to the block that it precedes. -/
theorem ends_cons {rest : List Instruction} (ends : Ends rest) :
    (i : Instruction) → Ends (i :: rest)
  | .ifThen condition thenBlock => by
    -- What takes the place of an instruction is made of its own blocks: the recursion is on these.
    refine ends_cons_of_expand fun s actions block t expanded => ?_
    cases givesWay_of_expand expanded with
    | toNothing => exact ends
    | ifThen => exact ends_append ends thenBlock
  | .ifElse condition thenBlock elseBlock => by
    refine ends_cons_of_expand fun s actions block t expanded => ?_
    cases givesWay_of_expand expanded with
    | toNothing => exact ends
    | ifElse_true => exact ends_append ends thenBlock
    | ifElse_false => exact ends_append ends elseBlock
  | .loop count body => by
    refine ends_cons_of_expand fun s actions block t expanded => ?_
    cases givesWay_of_expand expanded with
    | toNothing => exact ends
    | loop _ _ n => exact ends_replicate (fun rest ends => ends_append ends body) ends n
  | .setSpeed _ | .setDirection _ | .bounce | .stop | .setVariable .. | .playSample _
  | .spawnBall .. | .print _ => by
    refine ends_cons_of_expand fun s actions block t expanded => ?_
    cases givesWay_of_expand expanded
    exact ends

/-- Nor does a block. -/
theorem ends_append {rest : List Instruction} (ends : Ends rest) :
    (block : List Instruction) → Ends (block ++ rest)
  | [] => ends
  | i :: block => ends_cons (ends_append ends block) i

end

/-- A run gives a result iff its course does. -/
theorem execAll_eq_iff_course {block : List Instruction} {s : Scene} {r : Result} :
    execAll block s = r ↔ ∃ trace, Course block s trace r := by
  refine ⟨fun same => ?_, fun ⟨_, course⟩ => course.execAll_eq⟩
  -- There is a course in any case; what it gives is the result of the run.
  obtain ⟨trace, r', course⟩ := ends_append ends_nil block s
  rw [List.append_nil] at course
  rw [← same, course.execAll_eq]
  exact ⟨trace, course⟩

/-! ## Blocks at every depth -/

/-- Two blocks that are the same but for one place, at whatever depth, where one of them has the
    block `first` and the other one `second`. -/
inductive Replaces (first second : List Instruction) : List Instruction → List Instruction → Prop
  | here (before after : List Instruction) :
    Replaces first second (before ++ first ++ after) (before ++ second ++ after)
  | ifThen (before after : List Instruction) (condition : Expression)
      {block block' : List Instruction} : Replaces first second block block' →
    Replaces first second (before ++ .ifThen condition block :: after)
      (before ++ .ifThen condition block' :: after)
  | ifElse_true (before after : List Instruction) (condition : Expression)
      {block block' : List Instruction} (elseBlock : List Instruction) :
    Replaces first second block block' →
    Replaces first second (before ++ .ifElse condition block elseBlock :: after)
      (before ++ .ifElse condition block' elseBlock :: after)
  | ifElse_false (before after : List Instruction) (condition : Expression)
      (thenBlock : List Instruction) {block block' : List Instruction} :
    Replaces first second block block' →
    Replaces first second (before ++ .ifElse condition thenBlock block :: after)
      (before ++ .ifElse condition thenBlock block' :: after)
  | loop (before after : List Instruction) (count : Expression)
      {block block' : List Instruction} : Replaces first second block block' →
    Replaces first second (before ++ .loop count block :: after)
      (before ++ .loop count block' :: after)

/-- Blocks that run alike can stand for each other. -/
theorem execAll_of_replaces {first second : List Instruction}
    (same : execAll first = execAll second) {block block' : List Instruction}
    (h : Replaces first second block block') : execAll block = execAll block' := by
  induction h with
  | here => simp only [execAll_append, same]
  | _ => simp only [execAll_append, execAll, exec, *]

/-! ## Loops and branches in a scene -/

/-- How blocks, loops and branches run from a scene. -/
structure RunsUnrolled (s : Scene) : Prop where
  /-- Two blocks one after the other run as one. -/
  append : ∀ first second : List Instruction, execAll (first ++ second) s =
    (do
      let actions ← execAll first
      let more ← execAll second
      pure (actions ++ more) : Execution (List Action)) s
  /-- A loop evaluates its count once. If that is a number, it runs as its body so many times
      over. -/
  loop_number : ∀ count body n t, evaluate count s = .ok (.number n) t →
    exec (.loop count body) s = execAll (List.replicate n.iterations body).flatten t
  /-- If it is none, nothing is run, and that is counted. -/
  loop_other : ∀ count body v t, evaluate count s = .ok v t → v.kind ≠ .number →
    ∃ u, exec (.loop count body) s = .ok [] u ∧ u.context = t.context ∧
      u.engine.drawn = t.engine.drawn ∧
      ∀ f, u.engine.tally.count f = t.engine.tally.count f + if f = .typeMismatch then 1 else 0
  /-- A branch evaluates its condition once, and runs as one of its blocks or as none. -/
  ifThen : ∀ condition thenBlock v t, evaluate condition s = .ok v t →
    exec (.ifThen condition thenBlock) s =
      execAll (if v = .boolean true then thenBlock else []) t
  ifElse : ∀ condition thenBlock elseBlock v t, evaluate condition s = .ok v t →
    exec (.ifElse condition thenBlock elseBlock) s =
      execAll (if v = .boolean true then thenBlock else elseBlock) t
  /-- If the evaluation fails, so does the loop or the branch. -/
  failed : ∀ e err t, evaluate e s = .error err t →
    (∀ body, exec (.loop e body) s = .error err t) ∧
      (∀ thenBlock, exec (.ifThen e thenBlock) s = .error err t) ∧
      ∀ thenBlock elseBlock, exec (.ifElse e thenBlock elseBlock) s = .error err t
  /-- The same holds of what comes of it, at every depth: with the block that takes the place of an
      instruction put in front of the rest, a run is a sequence of such steps to its end. -/
  course : ∀ block r, execAll block s = r ↔ ∃ trace, Course block s trace r
  /-- And blocks that run alike can stand for each other at every depth. -/
  nested : ∀ first second, execAll first = execAll second →
    ∀ block block', Replaces first second block block' → execAll block s = execAll block' s

/-- From every scene, loops run as their bodies so many times over and branches as their blocks, at
    every depth. -/
theorem runsUnrolled (s : Scene) : RunsUnrolled s where
  append first second := by rw [execAll_append]
  loop_number count body n t evaluated := by
    rw [exec, bind_of_ok evaluated, ← repeated_execAll]
  loop_other count body v t evaluated other := by
    refine ⟨{ t with engine := t.engine.record (.loopCount v.kind) }, ?_, rfl, rfl, fun f => ?_⟩
    · rw [exec, bind_of_ok evaluated]
      cases v with
      | number n => exact absurd rfl other
      | _ => rfl
    · simp only [Engine.count_record, Mishap.fallback, eq_comm]
  ifThen condition thenBlock v t evaluated := by
    rw [exec, bind_of_ok evaluated]
    simp only [Value.isTrue_iff]
    split <;> rfl
  ifElse condition thenBlock elseBlock v t evaluated := by
    rw [exec, bind_of_ok evaluated]
    simp only [Value.isTrue_iff]
    split <;> rfl
  failed e err t failed := by
    refine ⟨fun body => ?_, fun thenBlock => ?_, fun thenBlock elseBlock => ?_⟩
    · rw [exec, bind_of_error failed]
    · rw [exec, bind_of_error failed]
    · rw [exec, bind_of_error failed]
  course _ _ := execAll_eq_iff_course
  nested first second same block block' replaces := by rw [execAll_of_replaces same replaces]

/-- A loop whose body assigns the variable in its count, and that runs to its first count. -/
theorem runsUnrolled_count_assigned :
    let body : List Instruction := [.setVariable "n" (.literal (.boolean true)), .bounce]
    let s : Scene :=
      ⟨({} : Context).set "n" (.number (Binary64.ofInt 2)), { source := fun _ => .zero }⟩
    ∃ t, evaluate (.var "n") s = .ok (.number (Binary64.ofInt 2)) t ∧
      (Binary64.ofInt 2).iterations = 2 ∧
      exec (.loop (.var "n") body) s = execAll (body ++ body) t := by
  intro body s
  have evaluated : evaluate (.var "n") s = .ok (.number (Binary64.ofInt 2)) s := by
    simp [evaluate, Expression.eval, s, Context.set, pure, EStateM.pure]
  have twice : (Binary64.ofInt 2).iterations = 2 := by decide +kernel
  refine ⟨s, evaluated, twice, ?_⟩
  have unrolled := (runsUnrolled s).loop_number (.var "n") body _ s evaluated
  rw [twice] at unrolled
  exact unrolled

end Instruction

end Carom
