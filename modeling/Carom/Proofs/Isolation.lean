import Carom.Proofs.Blocks
import Carom.Proofs.Commit
import Carom.Proofs.Lockstep
import Carom.Proofs.Steps

/-!
# What a script sees and touches

A script sees the ball, its hit count, the variables that occur in the script and the random
numbers to come. Two scenes in which these are the same (`Scene.SameSight`) are the same to it: it
takes the same course in both (`Execution.SameCourse`), whatever the square is, whatever other
variables there are and whatever was recorded before. What it touches are variables, and of these
the ones that it assigns; it takes none away (`Context.Grows`). `seesAndTouches` says both of every
block.
-/

namespace Carom

/-! ## Engines that go the same way -/

namespace Engine

/-- The engine after so many draws and these fallbacks. -/
def after (g : Engine) (draws : Nat) (ms : List Mishap) : Engine :=
  { g.recordAll ms with drawn := g.drawn + draws }

/-- Two engines with the same random numbers to come. -/
def SameDraws (g h : Engine) : Prop := ∀ n, g.source (g.drawn + n) = h.source (h.drawn + n)

/-- Two engines after the same draws and fallbacks, one on either side. -/
def Abreast (g₀ h₀ g h : Engine) : Prop :=
  ∃ draws ms, g = g₀.after draws ms ∧ h = h₀.after draws ms

/-- To record a fallback is not to draw. -/
theorem source_recordAll (g : Engine) (ms : List Mishap) : (g.recordAll ms).source = g.source := by
  induction ms generalizing g with
  | nil => rfl
  | cons m ms ih => exact ih (g.record m)

/-- The tally of an engine counts the fallbacks that it was given. -/
theorem count_after (g : Engine) (draws : Nat) (ms : List Mishap) (f : Fallback) :
    (g.after draws ms).tally.count f = g.tally.count f + ms.countP fun m => m.fallback = f :=
  g.count_recordAll ms f

/-- One more fallback comes behind all others. -/
theorem record_after (g : Engine) (draws : Nat) (ms : List Mishap) (m : Mishap) :
    (g.after draws ms).record m = g.after draws (ms ++ [m]) := by
  rw [after, after, recordAll_append]
  rfl

/-- The next number to draw is the one behind those that are drawn. -/
theorem next_after (g : Engine) (draws : Nat) (ms : List Mishap) :
    (g.after draws ms).next = g.source (g.drawn + draws) := by
  rw [next, after, source_recordAll]

/-- Engines with the same random numbers to come stay abreast. -/
theorem parallel_abreast (uses : List Use) {g₀ h₀ : Engine} (same : g₀.SameDraws h₀) :
    Parallel uses (Abreast g₀ h₀) where
  record := by
    rintro _ _ ⟨draws, ms, rfl, rfl⟩ m
    exact ⟨draws, ms ++ [m], g₀.record_after draws ms m, h₀.record_after draws ms m⟩
  draw := by
    rintro - _ _ ⟨draws, ms, rfl, rfl⟩
    refine ⟨?_, draws + 1, ms, rfl, rfl⟩
    rw [next_after, next_after, same draws]

end Engine

/-! ## What is seen -/

/-- What occurs in a block: what it may read, and the variables that it may assign. -/
def Instruction.usesAll (block : List Instruction) : List Use :=
  Instruction.readsAll block ++ (Instruction.targetsAll block).map .var

/-- Two scenes that look the same to a script with these uses. The square, its hits and all other
    variables may differ, and so may what the engines have recorded. -/
structure Scene.SameSight (uses : List Use) (s t : Scene) : Prop where
  ballX : s.context.ballX = t.context.ballX
  ballY : s.context.ballY = t.context.ballY
  ballSpeed : s.context.ballSpeed = t.context.ballSpeed
  ballDirection : s.context.ballDirection = t.context.ballDirection
  ballHits : s.context.ballHits = t.context.ballHits
  value : ∀ name, .var name ∈ uses → s.value? name = t.value? name
  draws : s.engine.SameDraws t.engine

/-- A run that takes the same course from two scenes. -/
structure Execution.SameCourse {α : Type} (uses : List Use) (e : Execution α) (s t : Scene) :
    Prop where
  /-- It gives the same, or fails in the same way. -/
  outcome : e.outcome s = e.outcome t
  /-- The variables that occur have the same values in the end. -/
  value : ∀ name, .var name ∈ uses → (e.final s).value? name = (e.final t).value? name
  /-- It draws equally many numbers, and records the same fallbacks in the same order. -/
  engine : s.engine.Abreast t.engine (e.final s).engine (e.final t).engine
  /-- So each kind of fallback is counted equally often. -/
  tally : ∀ f, ∃ n, (e.final s).engine.tally.count f = s.engine.tally.count f + n ∧
    (e.final t).engine.tally.count f = t.engine.tally.count f + n

/-- Scenes that look the same begin abreast. -/
theorem Scene.SameSight.alike {uses : List Use} {s t : Scene} (h : s.SameSight uses t) :
    Scene.Alike uses (s.engine.Abreast t.engine) s t where
  context :=
    { value := h.value
      property := fun p _ => by
        unfold BallProperty.read
        rw [h.ballX, h.ballY, h.ballSpeed, h.ballDirection, h.ballHits] }
  engine := ⟨0, [], rfl, rfl⟩

/-- A run that agrees from two scenes takes the same course from both. -/
theorem Execution.sameCourse_of_agree {α : Type} {uses : List Use} {e : Execution α} {s t : Scene}
    (h : Agree (Scene.Alike uses (s.engine.Abreast t.engine)) (e s) (e t)) :
    e.SameCourse uses s t := by
  have ends : e.outcome s = e.outcome t ∧
      Scene.Alike uses (s.engine.Abreast t.engine) (e.final s) (e.final t) := by
    rw [outcome, outcome, final, final]
    generalize e s = r, e t = r' at h ⊢
    cases h with
    | ok a alike => exact ⟨rfl, alike⟩
    | error err alike => exact ⟨rfl, alike⟩
  obtain ⟨same, alike⟩ := ends
  refine ⟨same, alike.context.value, alike.engine, fun f => ?_⟩
  -- Both engines have recorded the same fallbacks since the start, so the gain is the same.
  obtain ⟨draws, ms, left, right⟩ := alike.engine
  rw [left, right]
  exact ⟨_, Engine.count_after _ draws ms f, Engine.count_after _ draws ms f⟩

/-! ## What is touched -/

/-- A context that has come from another one by assignments to these variables. -/
structure Context.Grows (targets : List String) (c d : Context) : Prop where
  /-- Nothing but the variables is touched. -/
  rest : d = { c with «variables» := d.variables }
  /-- No variable is taken away. -/
  kept : ∀ name : String, c.variables[name]?.isSome → d.variables[name]?.isSome
  /-- All other variables are as they were. -/
  others : ∀ name : String, name ∉ targets → d.variables[name]? = c.variables[name]?

namespace Context.Grows

variable {targets : List String} {b c d : Context}

theorem refl (c : Context) : c.Grows targets c := ⟨rfl, fun _ => id, fun _ _ => rfl⟩

/-- Assignments after assignments are assignments. -/
theorem trans (first : b.Grows targets c) (next : c.Grows targets d) : b.Grows targets d where
  rest := by rw [next.rest, first.rest]
  kept name has := next.kept name (first.kept name has)
  others name h := (next.others name h).trans (first.others name h)

/-- An assignment touches one variable and takes none away. -/
theorem set {name : String} (h : name ∈ targets) (c : Context) (v : Value) :
    c.Grows targets (c.set name v) where
  rest := rfl
  kept other has := by
    simp only [Context.set, Std.ExtTreeMap.getElem?_insert]
    split
    · rfl
    · exact has
  others other notIn := by
    have different : name ≠ other := fun same => notIn (same ▸ h)
    simp [Context.set, Std.ExtTreeMap.getElem?_insert, different]

end Context.Grows

/-- No part of a run touches more than the variables that it assigns, wherever the run fails. -/
theorem Execution.closed_grows (uses : List Use) (targets : List String) :
    Closed uses targets fun e => ∀ s : Scene, s.context.Grows targets (e.final s).context where
  pure a s := .refl _
  bind {α β e f} he hf s := by
    have first := he s
    simp only [final, Bind.bind, EStateM.bind] at first ⊢
    cases run : e s with
    | ok a t =>
      rw [run] at first
      exact first.trans (hf a t)
    | error err t =>
      rw [run] at first
      exact first
  evaluate {e} _ s := by
    simp only [final, Execution.evaluate]
    cases e.eval s.context s.engine <;> exact .refl _
  skip m s := .refl _
  assign v h s := .set h s.context v

/-- A block takes the same course in scenes that look the same to it, and it touches nothing but
    the variables that it assigns, also where it fails. -/
theorem Instruction.seesAndTouches (block : List Instruction) :
    (∀ s t : Scene, s.SameSight (usesAll block) t →
      (execAll block).SameCourse (usesAll block) s t) ∧
    ∀ s : Scene, s.context.Grows (targetsAll block) ((execAll block).final s).context := by
  refine ⟨fun s t same => ?_, ?_⟩
  · have lockstep := lockstep_execAll
      (Engine.parallel_abreast (usesAll block) same.draws) block (List.subset_append_left _ _)
    exact Execution.sameCourse_of_agree (lockstep s t same.alike)
  · exact closed_execAll (Execution.closed_grows (readsAll block) _) block
      (List.Subset.refl _) (List.Subset.refl _)

/-- A loop that draws, assigns and reads, on another square and with more variables, after other
    draws and fallbacks. -/
theorem Instruction.seesAndTouches_other_square :
    let block : List Instruction :=
      [.loop (.number (Binary64.ofInt 2))
        [.setVariable "v" (.random .zero .tolerance),
          .ifThen (.binary .lt (.var "v") (.ball .hitCount)) [.print (.var "w")]]]
    let c : Context := { ballHits := 3 }
    let s : Scene := ⟨c, { source := fun _ => .zero }⟩
    let t : Scene :=
      ⟨{ c.set "z" .zero with squareHits := 7, square := ⟨1, 2⟩ },
        { source := fun _ => .zero, drawn := 5, tally := { typeMismatch := 2 } }⟩
    s.SameSight (usesAll block) t ∧ (execAll block).SameCourse (usesAll block) s t ∧
      s.context.Grows (targetsAll block) ((execAll block).final s).context := by
  intro block c s t
  have sight : s.SameSight (usesAll block) t := by
    refine ⟨rfl, rfl, rfl, rfl, rfl, fun name occurs => ?_, fun n => rfl⟩
    have other : "z" ≠ name := by
      rintro rfl
      exact absurd occurs (by decide)
    simp only [Scene.value?, s, t, Context.set, Std.ExtTreeMap.getElem?_insert]
    simp [other]
  exact ⟨sight, (seesAndTouches block).1 s t sight, (seesAndTouches block).2 s⟩

end Carom
