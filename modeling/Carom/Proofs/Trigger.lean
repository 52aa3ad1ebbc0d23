import Carom.Proofs.History
import Carom.Proofs.Steps

/-!
# The hit at which a step takes place

A square and the store that counts its hits go through events: hits of the square, programs made
active or none, and whatever else executors are asked for. As long as the hits of the square are
not forgotten, and not counted without a collision, they are the collisions with it
(`Site.squareHits_run`), by whichever way a collision comes about. So a step of the table takes
place at the collision that its trigger names, if no program is active then, and never again.

* `Site.squareHits_step`: what one event does to the hits of the square.
* `timesFired_eq_zero`, `timesFired_le_one`: since they only grow, a step that is past does not
  take place, and none does twice.
* `stepsOnTrigger`: what each collision without an active program gives, and which steps take
  place in a whole run.
-/

namespace Carom

/-- A square and the store that counts its hits. -/
structure Site where
  store : Store
  square : Square

/-- What happens at a site. -/
inductive Event where
  /-- A ball collides with the square. -/
  | hit (ball : Ball)
  /-- A program of the square is made active, or none; an index that is refused changes
      nothing. -/
  | activate (index : Option Int)
  /-- An executor on the store is asked for something else. -/
  | perform (op : Operation)

namespace Event

variable (q : Position)

/-- Whether an event is a collision with the square at that place. -/
def collides : Event → Bool
  | hit _ => true
  | activate _ => false
  | perform op => op.collidesSquare q

/-- An event that neither forgets the hits of the square at that place nor counts one without a
    collision. -/
def Spares : Event → Prop
  | perform op => op.forgetsSquare q = false ∧ op.countsSquare q = false
  | _ => True

end Event

/-- To make another program active touches neither the table nor the programs. -/
theorem Square.keeps_of_activate {s s' : Square} {index : Option Int}
    (h : s.activate index = .ok s') : s'.steps = s.steps ∧ s'.programs = s.programs := by
  obtain ⟨programs, -, steps⟩ := activate_eq_ok_iff.1 h
  exact ⟨steps, programs⟩

namespace Site

variable (q : Position)

/-- The site after an event, on the engine that takes part in it. -/
def step (s : Site) : Engine × Event → Site
  | (g, .hit b) =>
    { s with store := (Executor.after ⟨s.store, g⟩ (.collideSquare s.square b q)).store }
  | (_, .activate index) =>
    match s.square.activate index with
    | .ok square => { s with square }
    | .error _ => s
  | (g, .perform op) => { s with store := (Executor.after ⟨s.store, g⟩ op).store }

/-- The site after some events. -/
def run (s : Site) (turns : List (Engine × Event)) : Site := turns.foldl (step q) s

/-- Whether a step takes place at an event: a hit of the square without an active program, of
    the number that the step tells. -/
def fires (s : Site) (t : Step) : Event → Bool
  | .hit _ => s.square.activeProgram?.isNone && (t.trigger : Int) == s.store.squareHits q + 1
  | _ => false

/-- At how many events of a run a step takes place. -/
def timesFired (t : Step) (s : Site) : List (Engine × Event) → Nat
  | [] => 0
  | turn :: turns => (if s.fires q t turn.2 then 1 else 0) + timesFired t (s.step q turn) turns

variable {q}

theorem run_cons (s : Site) (turn : Engine × Event) (turns : List (Engine × Event)) :
    s.run q (turn :: turns) = (s.step q turn).run q turns := rfl

/-! ## One event -/

/-- The table of a square and its programs stay as they are. -/
theorem keeps_step (s : Site) (turn : Engine × Event) :
    (s.step q turn).square.steps = s.square.steps ∧
      (s.step q turn).square.programs = s.square.programs := by
  obtain ⟨g, b | index | op⟩ := turn
  · exact ⟨rfl, rfl⟩
  · rw [step]
    split
    · exact Square.keeps_of_activate ‹_›
    · exact ⟨rfl, rfl⟩
  · exact ⟨rfl, rfl⟩

/-- An event is one more hit of the square if it is a collision with it. -/
theorem squareHits_step (s : Site) {turn : Engine × Event} (spared : turn.2.Spares q) :
    (s.step q turn).store.squareHits q =
      s.store.squareHits q + if turn.2.collides q then 1 else 0 := by
  obtain ⟨g, b | index | op⟩ := turn
  · rw [step, Executor.squareHits_after]
    simp [Operation.forgetsSquare, Operation.collidesSquare, Operation.countsSquare,
      Operation.collision?, Event.collides]
  · rw [step]
    split <;> simp [Event.collides]
  · obtain ⟨remembers, uncounted⟩ := spared
    rw [step, Executor.squareHits_after, remembers, uncounted]
    simp only [Bool.false_eq_true, if_false, Int.add_zero]
    rfl

/-- A step takes place at a hit without an active program, if the hit has its number. -/
theorem fires_iff {s : Site} {e : Event} {t : Step} :
    s.fires q t e ↔ (∃ b, e = .hit b) ∧ s.square.activeProgram? = none ∧
      (t.trigger : Int) = s.store.squareHits q + 1 := by
  cases e with
  | hit b => simp [fires]
  | _ => simp [fires]

/-! ## Whole runs -/

/-- So they do over a whole run. -/
theorem keeps_run (s : Site) (turns : List (Engine × Event)) :
    (s.run q turns).square.steps = s.square.steps ∧
      (s.run q turns).square.programs = s.square.programs := by
  induction turns generalizing s with
  | nil => exact ⟨rfl, rfl⟩
  | cons turn turns ih =>
    obtain ⟨steps, programs⟩ := s.keeps_step (q := q) turn
    rw [run_cons, (ih _).1, (ih _).2]
    exact ⟨steps, programs⟩

/-- The hits of the square grow with the collisions with it. -/
theorem squareHits_run (s : Site) {turns : List (Engine × Event)}
    (spared : ∀ turn ∈ turns, turn.2.Spares q) :
    (s.run q turns).store.squareHits q =
      s.store.squareHits q + turns.countP fun turn => turn.2.collides q := by
  induction turns generalizing s with
  | nil => simp [run]
  | cons turn turns ih =>
    obtain ⟨now, later⟩ := List.forall_mem_cons.1 spared
    rw [run_cons, ih _ later, s.squareHits_step now, List.countP_cons]
    split_ifs <;> push_cast <;> omega

/-- Where a run is cut, the hits of a square that nobody hit before it are the collisions so
    far. -/
theorem squareHits_run_of_append {s : Site} (unhit : s.store.squareHits q = 0)
    {before later : List (Engine × Event)} (spared : ∀ turn ∈ before ++ later, turn.2.Spares q) :
    (s.run q before).store.squareHits q = before.countP fun turn => turn.2.collides q := by
  rw [s.squareHits_run fun turn mem => spared turn (List.mem_append_left _ mem), unhit,
    Int.zero_add]

variable {t : Step}

/-- A step whose hit is past does not take place. -/
theorem timesFired_eq_zero {s : Site} {turns : List (Engine × Event)}
    (spared : ∀ turn ∈ turns, turn.2.Spares q) (past : (t.trigger : Int) ≤ s.store.squareHits q) :
    timesFired q t s turns = 0 := by
  induction turns generalizing s with
  | nil => rfl
  | cons turn turns ih =>
    obtain ⟨now, later⟩ := List.forall_mem_cons.1 spared
    have silent : ¬s.fires q t turn.2 := by
      rw [fires_iff]
      rintro ⟨-, -, next⟩
      omega
    have grown := s.squareHits_step now
    rw [timesFired, if_neg silent, ih later (by split_ifs at grown <;> omega)]

/-- A step takes place at most once. -/
theorem timesFired_le_one {s : Site} {turns : List (Engine × Event)}
    (spared : ∀ turn ∈ turns, turn.2.Spares q) : timesFired q t s turns ≤ 1 := by
  induction turns generalizing s with
  | nil => exact Nat.zero_le 1
  | cons turn turns ih =>
    obtain ⟨now, later⟩ := List.forall_mem_cons.1 spared
    rw [timesFired]
    by_cases fires : s.fires q t turn.2
    · -- The hit of the step is counted now, so it is past for the rest of the run.
      obtain ⟨⟨b, hit⟩, -, next⟩ := fires_iff.1 fires
      have grown := s.squareHits_step now
      rw [hit, Event.collides, if_pos rfl] at grown
      rw [if_pos fires, timesFired_eq_zero later (by omega)]
    · rw [if_neg fires, Nat.zero_add]
      exact ih later

/-- A step takes place in a run iff it does so at some event of it. -/
theorem timesFired_pos_iff {s : Site} {turns : List (Engine × Event)} :
    0 < timesFired q t s turns ↔
      ∃ before turn later, turns = before ++ turn :: later ∧ (s.run q before).fires q t turn.2 := by
  induction turns generalizing s with
  | nil => simp [timesFired]
  | cons first turns ih =>
    rw [timesFired, Nat.add_pos_iff_pos_or_pos, ih]
    constructor
    · rintro (now | ⟨before, turn, later, rfl, fires⟩)
      · split at now
        · exact ⟨[], first, turns, rfl, ‹_›⟩
        · exact absurd now (Nat.lt_irrefl 0)
      · exact ⟨first :: before, turn, later, rfl, fires⟩
    · rintro ⟨before, turn, later, split, fires⟩
      rcases before with _ | ⟨first', before⟩
      · obtain ⟨rfl, rfl⟩ := List.cons.inj split
        refine .inl ?_
        rw [if_pos (show s.fires q t first.2 from fires)]
        exact Nat.one_pos
      · obtain ⟨rfl, rfl⟩ := List.cons.inj split
        exact .inr ⟨before, turn, later, rfl, fires⟩

/-- What comes of the steps of a site in a run. -/
structure StepsOnTrigger (s : Site) (q : Position) (turns : List (Engine × Event)) : Prop where
  /-- A hit without an active program gives what the steps ask for that tell its number among the
      collisions with the square. -/
  gives : ∀ before g b later, turns = before ++ (g, .hit b) :: later →
    (s.run q before).square.activeProgram? = none →
    Executor.GivesSteps ⟨(s.run q before).store, g⟩ (s.run q before).square b q
      (s.square.due ((before.countP fun turn => turn.2.collides q) + 1))
  /-- No step takes place twice. -/
  once : ∀ t ∈ s.square.steps, timesFired q t s turns ≤ 1
  /-- A step takes place if the collision that it tells happens and no program is active then. -/
  once_iff : ∀ t ∈ s.square.steps, timesFired q t s turns = 1 ↔
    ∃ before g b later, turns = before ++ (g, .hit b) :: later ∧
      (s.run q before).square.activeProgram? = none ∧
      t.trigger = (before.countP fun turn => turn.2.collides q) + 1

/-- On a square that has not been hit in the beginning, and whose hits nobody forgets, each step
    takes place at the collision that it tells, once, unless a program is active then. -/
theorem stepsOnTrigger (s : Site) (q : Position) {turns : List (Engine × Event)}
    (unhit : s.store.squareHits q = 0) (spared : ∀ turn ∈ turns, turn.2.Spares q) :
    s.StepsOnTrigger q turns where
  gives := by
    rintro before g b later rfl inactive
    have hits := squareHits_run_of_append unhit spared
    obtain ⟨steps, -⟩ := s.keeps_run (q := q) before
    -- The number of the hit is that of the collisions before it, and one.
    have gives := Executor.givesSteps ⟨(s.run q before).store, g⟩ inactive b q
    rwa [hits, Square.due, steps, ← Square.due] at gives
  once t _ := timesFired_le_one spared
  once_iff t _ := by
    -- No step takes place twice, so it is enough to know when it does at all.
    have once : timesFired q t s turns = 1 ↔ 0 < timesFired q t s turns := by
      have := timesFired_le_one (s := s) (t := t) spared
      omega
    rw [once, timesFired_pos_iff]
    constructor
    · rintro ⟨before, ⟨g, e⟩, later, rfl, fires⟩
      obtain ⟨⟨b, rfl⟩, inactive, trigger⟩ := fires_iff.1 fires
      have hits := squareHits_run_of_append unhit spared
      exact ⟨before, g, b, later, rfl, inactive, by omega⟩
    · rintro ⟨before, g, b, later, rfl, inactive, trigger⟩
      have hits := squareHits_run_of_append unhit spared
      exact ⟨before, _, later, rfl, fires_iff.2 ⟨⟨b, rfl⟩, inactive, by omega⟩⟩

/-- A square with two programs whose second hit comes while one of them is active, and whose
    third one is after a reset of the variables and a hit elsewhere. -/
theorem stepsOnTrigger_three_hits :
    let b : Ball := ⟨"a", .zero, .zero, .zero, .right, "red", by decide⟩
    let idle : Program := ⟨"idle", [], none⟩
    let second : Step := ⟨2, .stop, by decide⟩
    let third : Step := ⟨3, .execute 7, by decide⟩
    let s : Site :=
      ⟨{}, ⟨[idle], none, [third, ⟨1, .bounce, by decide⟩, second, ⟨3, .playSample 4, by decide⟩],
        nofun⟩⟩
    let g : Engine := { source := fun _ => .zero }
    let turns : List (Engine × Event) :=
      [(g, .hit b), (g, .activate (some 0)), (g, .hit b), (g, .activate none),
        (g, .perform .resetVariables), (g, .perform (.collide idle b ⟨1, 0⟩)), (g, .hit b)]
    s.store.squareHits ⟨0, 0⟩ = 0 ∧ (∀ turn ∈ turns, turn.2.Spares ⟨0, 0⟩) ∧
      timesFired ⟨0, 0⟩ second s turns = 0 ∧ timesFired ⟨0, 0⟩ third s turns = 1 ∧
      s.StepsOnTrigger ⟨0, 0⟩ turns := by
  intro b idle second third s g turns
  have spared : ∀ turn ∈ turns, turn.2.Spares ⟨0, 0⟩ := by
    simp [turns, Event.Spares, Operation.forgetsSquare, Operation.countsSquare]
  exact ⟨rfl, spared, by decide +kernel, by decide +kernel, s.stepsOnTrigger ⟨0, 0⟩ rfl spared⟩

end Site

end Carom
