import Carom.Proofs.Collision

/-!
# The table of steps

A square without an active program runs its steps. Those whose hit it is (`Square.due`) ask for
their actions in the order of the table, and one that names a program which the square does not
have is recorded instead (`Step.runAll_eq`). Nothing else comes of it: no variable is written and
no random number is drawn.

* `collideSquare_of_inactive`: so a collision with such a square counts the hit, gives the actions
  of the steps that are due and records those that cannot take place.
* `dispatch_eq_activated`: to run the program that a single step names, in a context that is taken
  after the collision, comes to the same as a collision with that program active.
-/

namespace Carom

/-! ## What an effect asks for -/

namespace Effect

/-- Whether an effect names a program that is not among these. -/
def isMissing (programs : List Program) : Effect → Bool
  | execute i => decide (programs.length ≤ i)
  | _ => false

/-- The action of an effect on a ball of that speed; there is none for a program that is missing. -/
def action? (programs : List Program) (speed : Binary64) : Effect → Option Action
  | bounce => some .bounce
  | stop => some .stop
  | multiplySpeed factor => some (.setSpeed (speed * factor))
  | changeDirection d => some (.setDirection d)
  | playSample i => some (.playSample i)
  | execute i => programs[i]?.map .execute

/-- What is wrong with an effect that has no action. -/
def mishap? (programs : List Program) : Effect → Option Mishap
  | execute i => if programs.length ≤ i then some (.noProgram i programs.length) else none
  | _ => none

variable {programs : List Program} {speed : Binary64} {effect : Effect}

/-- An effect has an action, unless it names a program that is missing. -/
theorem isNone_action? :
    (effect.action? programs speed).isNone = effect.isMissing programs := by
  cases effect with
  | execute i =>
    rw [action?, Option.isNone_map, isMissing, Bool.eq_iff_iff, Option.isNone_iff_eq_none,
      List.getElem?_eq_none_iff, decide_eq_true_eq]
  | _ => rfl

/-- And something is wrong with it in that case only. -/
theorem isSome_mishap? : (effect.mishap? programs).isSome = effect.isMissing programs := by
  cases effect with
  | execute i => by_cases h : programs.length ≤ i <;> simp [mishap?, isMissing, h]
  | _ => rfl

/-- A step with a program that is missing counts as dropped. -/
theorem fallback_of_mishap? {m : Mishap} (h : effect.mishap? programs = some m) :
    m.fallback = .droppedInstruction := by
  cases effect with
  | execute i =>
    obtain ⟨-, same⟩ := Option.ite_none_right_eq_some.1 h
    obtain rfl := Option.some.inj same
    rfl
  | _ => cases h

end Effect

namespace Engine

/-- The engine after several fallbacks. -/
def recordAll (g : Engine) (ms : List Mishap) : Engine := ms.foldl record g

/-- Fallbacks are recorded one after the other. -/
theorem recordAll_append (g : Engine) (ms more : List Mishap) :
    g.recordAll (ms ++ more) = (g.recordAll ms).recordAll more :=
  List.foldl_append

/-- To record fallbacks is not to draw. -/
theorem drawn_recordAll (g : Engine) (ms : List Mishap) : (g.recordAll ms).drawn = g.drawn := by
  induction ms generalizing g with
  | nil => rfl
  | cons m ms ih => exact ih (g.record m)

/-- Each fallback is counted once, as its own kind. -/
theorem count_recordAll (g : Engine) (ms : List Mishap) (f : Fallback) :
    (g.recordAll ms).tally.count f = g.tally.count f + ms.countP fun m => m.fallback = f := by
  induction ms generalizing g with
  | nil => rfl
  | cons m ms ih =>
    have rest : (g.recordAll (m :: ms)).tally.count f = _ := ih (g.record m)
    rw [rest, count_record, List.countP_cons]
    simp only [decide_eq_true_eq]
    omega

end Engine

/-- What follows a run that ends well goes on from where it ends. -/
theorem Execution.bind_of_ok {α β : Type} {e : Execution α} {f : α → Execution β} {s t : Scene}
    {a : α} (h : e s = .ok a t) : (e >>= f) s = f a t := by
  simp only [bind, EStateM.bind, h]

/-- An effect asks for its action, or is recorded. -/
theorem Effect.run_eq (programs : List Program) (effect : Effect) (c : Context) (g : Engine) :
    effect.run programs ⟨c, g⟩ =
      .ok (effect.action? programs c.ballSpeed).toList
        ⟨c, g.recordAll (effect.mishap? programs).toList⟩ := by
  cases effect with
  | execute i =>
    rw [run, action?, mishap?]
    by_cases h : programs.length ≤ i
    · rw [List.getElem?_eq_none h, if_pos h]
      rfl
    · rw [List.getElem?_eq_getElem (Nat.not_le.1 h), if_neg h]
      rfl
  | _ => rfl

/-! ## What the table asks for -/

/-- The actions of some steps. -/
def Step.actions (programs : List Program) (speed : Binary64) (steps : List Step) : List Action :=
  steps.filterMap fun t => t.effect.action? programs speed

/-- What is wrong with some steps. -/
def Step.mishaps (programs : List Program) (steps : List Step) : List Mishap :=
  steps.filterMap fun t => t.effect.mishap? programs

namespace Step

variable (programs : List Program)

/-- The actions come in the order of the steps. -/
theorem actions_cons (speed : Binary64) (t : Step) (rest : List Step) :
    actions programs speed (t :: rest) =
      (t.effect.action? programs speed).toList ++ actions programs speed rest := by
  rw [actions, actions, List.filterMap_cons]
  cases t.effect.action? programs speed <;> rfl

/-- And so does what is wrong with them. -/
theorem mishaps_cons (t : Step) (rest : List Step) :
    mishaps programs (t :: rest) =
      (t.effect.mishap? programs).toList ++ mishaps programs rest := by
  rw [mishaps, mishaps, List.filterMap_cons]
  cases t.effect.mishap? programs <;> rfl

/-- A table runs its first step, if that is due, and then the others. -/
theorem runAll_cons (t : Step) (rest : List Step) (c : Context) (g : Engine) :
    runAll programs (t :: rest) ⟨c, g⟩ =
      ((if t.fires c then t.effect.run programs else pure []) >>= fun actions =>
        runAll programs rest >>= fun more => pure (actions ++ more) : Execution _) ⟨c, g⟩ := by
  rw [runAll]
  simp only [bind, EStateM.bind]
  cases t.fires c <;> rfl

/-- A table runs the steps whose hit it is, in its order, and leaves the context as it is. -/
theorem runAll_eq (steps : List Step) (c : Context) (g : Engine) :
    runAll programs steps ⟨c, g⟩ =
      .ok (actions programs c.ballSpeed (steps.filter (fires c)))
        ⟨c, g.recordAll (mishaps programs (steps.filter (fires c)))⟩ := by
  induction steps generalizing g with
  | nil => rfl
  | cons t rest ih =>
    rw [runAll_cons]
    by_cases due : t.fires c
    · rw [if_pos due, List.filter_cons_of_pos due, actions_cons, mishaps_cons,
        Engine.recordAll_append, Execution.bind_of_ok (t.effect.run_eq programs c g),
        Execution.bind_of_ok (ih _)]
      rfl
    · rw [if_neg due, List.filter_cons_of_neg due, pure_bind, Execution.bind_of_ok (ih g)]
      rfl

/-- A step has an action, unless it names a program that is missing. -/
theorem length_actions_add (speed : Binary64) (steps : List Step) :
    (actions programs speed steps).length + (steps.countP fun t => t.effect.isMissing programs) =
      steps.length := by
  rw [actions, List.length_filterMap_eq_countP,
    List.length_eq_countP_add_countP fun t : Step => (t.effect.action? programs speed).isSome]
  simp only [Bool.not_eq_true, Option.isSome_eq_false_iff, Effect.isNone_action?,
    Bool.decide_eq_true]

/-- As many fallbacks are recorded as steps name a program that is missing, all of one kind. -/
theorem countP_mishaps (steps : List Step) (f : Fallback) :
    (mishaps programs steps).countP (fun m => m.fallback = f) =
      if f = .droppedInstruction then steps.countP fun t => t.effect.isMissing programs else 0 := by
  have dropped : ∀ m ∈ mishaps programs steps, m.fallback = .droppedInstruction := by
    intro m mem
    obtain ⟨t, -, found⟩ := List.mem_filterMap.1 mem
    exact Effect.fallback_of_mishap? found
  split
  · rename_i kind
    have all : ∀ m ∈ mishaps programs steps, decide (m.fallback = f) = true := fun m mem =>
      decide_eq_true ((dropped m mem).trans kind.symm)
    rw [List.countP_eq_length.2 all, mishaps, List.length_filterMap_eq_countP]
    simp only [Effect.isSome_mishap?]
  · rename_i kind
    refine List.countP_eq_zero.2 fun m mem same => kind ?_
    rw [← of_decide_eq_true same, dropped m mem]

end Step

/-! ## Collisions without an active program -/

namespace Square

/-- The steps that take place at a hit of the square, in the order of the table. -/
def due (s : Square) (hit : Int) : List Step := s.steps.filter fun t => (t.trigger : Int) == hit

/-- A program of the square can be made the active one. -/
theorem exists_activate {s : Square} {i : Nat} (h : i < s.programs.length) :
    ∃ s', s.activate (some i) = .ok s' ∧ s'.activeProgram? = some s.programs[i] := by
  rw [show (i : Int) = .ofNat i from rfl, activate, dif_pos h]
  exact ⟨_, rfl, rfl⟩

end Square

namespace Executor

/-- A collision with a square without an active program counts the hit and runs the steps that
    are due at it. -/
theorem collideSquare_of_inactive (x : Executor) {s : Square} (inactive : s.activeProgram? = none)
    (b : Ball) (q : Position) :
    let due := s.due (x.store.squareHits q + 1)
    x.collideSquare s b q =
      { result := .ok (Step.actions s.programs b.speed due)
        context := (x.countHit b q).store.context b q
        executor := { x.countHit b q with
          engine := (x.countHit b q).engine.recordAll (Step.mishaps s.programs due) } } := by
  intro due
  have counted : (x.countHit b q).store.squareHits q = x.store.squareHits q + 1 :=
    (x.store.squareHits_countHit b.identity q q).trans (by rw [if_pos rfl])
  have same : s.steps.filter (Step.fires ((x.countHit b q).store.context b q)) = due := by
    simp only [due, ← counted]
    rfl
  rw [collideSquare, inactive]
  simp only [run, Step.runAll_eq, same]
  rfl

/-- What a collision with a square without an active program gives and leaves, if these are the
    steps that are due at it. -/
structure GivesSteps (x : Executor) (s : Square) (b : Ball) (q : Position) (due : List Step) :
    Prop where
  /-- The actions of the steps, in the order of the table. -/
  result : (x.collideSquare s b q).result = .ok (Step.actions s.programs b.speed due)
  /-- A step has one action, unless it names a program that the square does not have. -/
  length : (Step.actions s.programs b.speed due).length +
    (due.countP fun t => t.effect.isMissing s.programs) = due.length
  /-- Each step that names such a program is counted as one that was dropped, and nothing else is
      recorded. -/
  tally : ∀ f, (x.collideSquare s b q).executor.engine.tally.count f = x.engine.tally.count f +
    if f = .droppedInstruction then due.countP fun t => t.effect.isMissing s.programs else 0
  /-- Nothing is drawn. -/
  drawn : (x.collideSquare s b q).executor.engine.drawn = x.engine.drawn
  /-- The hit is counted, and no variable is written. -/
  store : x.store.OneHit (x.collideSquare s b q).executor.store b.identity q

/-- A collision with a square without an active program gives what the steps ask for that are
    due. -/
theorem givesSteps (x : Executor) {s : Square} (inactive : s.activeProgram? = none) (b : Ball)
    (q : Position) : x.GivesSteps s b q (s.due (x.store.squareHits q + 1)) where
  result := by rw [x.collideSquare_of_inactive inactive b q]
  length := Step.length_actions_add _ _ _
  tally f := by
    rw [x.collideSquare_of_inactive inactive b q, ← Step.countP_mishaps]
    exact Engine.count_recordAll _ _ f
  drawn := by
    rw [x.collideSquare_of_inactive inactive b q]
    exact Engine.drawn_recordAll _ _
  store := by
    rw [x.collideSquare_of_inactive inactive b q]
    exact x.store.oneHit_countHit b.identity q

/-- If the only step that is due names a program, then to run that program next, in a context that
    is taken after the collision, gives the same and leaves the same, the engine included, as a
    collision with that program active. -/
theorem dispatch_eq_activated (x : Executor) {s : Square} (inactive : s.activeProgram? = none)
    (b : Ball) (q : Position) {t : Step} {i : Nat}
    (single : s.due (x.store.squareHits q + 1) = [t]) (effect : t.effect = .execute i)
    (known : i < s.programs.length) :
    let first := x.collideSquare s b q
    ∃ p s', s.programs[i]? = some p ∧ s.activate (some i) = .ok s' ∧
      first.result = .ok [.execute p] ∧
      first.executor.execute p (first.executor.store.context b q) = x.collideSquare s' b q := by
  intro first
  obtain ⟨s', activated, active⟩ := Square.exists_activate known
  have found : s.programs[i]? = some s.programs[i] := List.getElem?_eq_getElem known
  have actions : Step.actions s.programs b.speed [t] = [.execute s.programs[i]] := by
    rw [Step.actions_cons, effect, Effect.action?, found]
    rfl
  have mishaps : Step.mishaps s.programs [t] = [] := by
    rw [Step.mishaps_cons, effect, Effect.mishap?, if_neg (Nat.not_le.2 known)]
    rfl
  have asks : first = ⟨.ok [.execute s.programs[i]], (x.countHit b q).store.context b q,
      x.countHit b q⟩ := by
    simp only [first, x.collideSquare_of_inactive inactive b q, single, actions, mishaps]
    rfl
  refine ⟨_, s', found, activated, by rw [asks], ?_⟩
  -- The second context is the one in which the active program runs.
  rw [asks, collideSquare, active]
  rfl

/-- The second program of a square, which draws a random number, named by its step for the first
    hit. -/
theorem dispatch_eq_activated_first_hit :
    let b : Ball := ⟨"a", .zero, .zero, .zero, .right, "red", by decide⟩
    let drawing : Program :=
      ⟨"drawing", [.setVariable "v" (.random .zero .tolerance), .setSpeed (.var "v")], none⟩
    let t : Step := ⟨1, .execute 1, by decide⟩
    let s : Square := ⟨[⟨"idle", [], none⟩, drawing], none, [⟨2, .stop, by decide⟩, t], nofun⟩
    let x : Executor := ⟨{}, { source := fun _ => .zero }⟩
    let first := x.collideSquare s b ⟨0, 0⟩
    s.activeProgram? = none ∧ s.due (x.store.squareHits ⟨0, 0⟩ + 1) = [t] ∧
      t.effect = .execute 1 ∧ 1 < s.programs.length ∧
      ∃ p s', s.programs[1]? = some p ∧ s.activate (some 1) = .ok s' ∧
        first.result = .ok [.execute p] ∧
        first.executor.execute p (first.executor.store.context b ⟨0, 0⟩) =
          x.collideSquare s' b ⟨0, 0⟩ := by
  intro b drawing t s x first
  have inactive : s.activeProgram? = none := rfl
  have single : s.due (x.store.squareHits ⟨0, 0⟩ + 1) = [t] := by decide +kernel
  have effect : t.effect = .execute 1 := rfl
  have known : 1 < s.programs.length := by decide
  exact ⟨inactive, single, effect, known,
    x.dispatch_eq_activated inactive b ⟨0, 0⟩ single effect known⟩

end Executor

end Carom
