import Carom.Proofs.Binary64.Range
import Carom.Proofs.History
import Carom.Proofs.Script.Meaning

/-!
# The hit from which a line bounces

A line `if C hits T N times` compares the hits of the ball with `N`. On a store where nothing
has happened in the beginning, and where nobody forgets the hits of the balls, those are the
collisions of this ball, whatever else is done with the store and on whichever engine.

* `Store.ballHits_performAll`: the hits of a ball after such operations.
* `Operation.result_of_runs`: in whichever way a program comes to run on a collision, what it
  gives is the same.
* `Script.bounces_from_count`: so the line gives its bounce in the collisions of the ball from
  the `N`th one on.
-/

namespace Carom

open Text

namespace Store

/-- The store after an operation on some engine. -/
def after (s : Store) (turn : Engine × Operation) : Store :=
  (Executor.after ⟨s, turn.1⟩ turn.2).store

/-- The store after some operations, each on an engine of its own. -/
def performAll (s : Store) (turns : List (Engine × Operation)) : Store := turns.foldl after s

/-- The hits of a ball grow with its collisions, as long as they are not forgotten and not
    counted in another way. -/
theorem ballHits_performAll (s : Store) {turns : List (Engine × Operation)} {b : String}
    (kept : ∀ turn ∈ turns, turn.2.forgetsBalls = false ∧ turn.2.countsBall b = false) :
    (s.performAll turns).ballHits b =
      s.ballHits b + turns.countP fun turn => turn.2.collidesBall b := by
  induction turns generalizing s with
  | nil => simp [performAll]
  | cons turn turns ih =>
    obtain ⟨remembers, uncounted⟩ := kept turn List.mem_cons_self
    have step : (s.after turn).ballHits b =
        s.ballHits b + if turn.2.collidesBall b then 1 else 0 := by
      rw [after, Executor.ballHits_after, remembers, uncounted]
      simp
    have rest := ih (s.after turn) fun other mem => kept other (List.mem_cons_of_mem _ mem)
    rw [performAll, List.foldl_cons, ← performAll, rest, step, List.countP_cons]
    split_ifs <;> push_cast <;> omega

end Store

/-- An operation lets a ball collide with a square that runs a program: as the program that is
    given, as the active one of the square, or as the one that a script is read as. -/
inductive Operation.Runs (p : Program) (b : Ball) (q : Position) : Operation → Prop
  | given : Runs p b q (.collide p b q)
  | active {s : Square} : s.activeProgram? = some p → Runs p b q (.collideSquare s b q)
  | script {source : String} : Script.read source = .ok p → Runs p b q (.collideScript source b q)

/-- A program that changes nothing gives the same in whichever way it comes to run. -/
theorem Operation.result_of_runs {p : Program} {b : Ball} {q : Position} {op : Operation}
    (h : op.Runs p b q) (x : Executor) {actions : List Action}
    (unchanged : ∀ g, p.run ⟨(x.store.countHit b.identity q).context b q, g⟩ =
      .ok actions ⟨(x.store.countHit b.identity q).context b q, g⟩) :
    (x.perform op).result = .ok (.actions actions) := by
  have collides (g : Engine) : Executor.collide ⟨x.store, g⟩ p b q =
      ⟨.ok actions, _, Executor.countHit ⟨x.store, g⟩ b q⟩ :=
    Executor.collide_of_unchanged ⟨x.store, g⟩ unchanged
  -- A script runs on an engine of its own, so the program must change nothing on any engine.
  cases h with
  | given =>
    simp only [Executor.perform, Executor.ofRan, collides x.engine]
    rfl
  | active active =>
    simp only [Executor.perform, Executor.ofRan, Executor.collideSquare, active,
      collides x.engine]
    rfl
  | script read =>
    simp only [Executor.perform, Executor.collideScript, Store.collideScript, read, collides]
    rfl

namespace Script

/-- What a line gives is what its words ask for. -/
theorem Line.Gives.asked {c : Context} {l : Line} {actions : List Action} (h : l.Gives c actions)
    {hits : Binary64} (fits : Binary64.ofInt? c.ballHits = some hits) :
    reaction? hits c.ballSpeed l.words = some actions := by
  obtain ⟨i, statement, runs⟩ := h
  obtain ⟨actions', asked, runs'⟩ := exec_of_spells (statement_eq_ok_iff.1 statement).2 fits
  have g : Engine := { source := fun _ => .zero }
  have same := (runs g).symm.trans (runs' g)
  obtain ⟨rfl, -⟩ := EStateM.Result.ok.inj same
  exact asked

/-- A condition gives a bounce if the hits of the ball are as many as its line tells, and
    nothing if they are fewer. -/
theorem share_of_condition {c : Context} {m : Nat} (hits : c.ballHits = m) (few : m ≤ 2 ^ 53)
    {l : Line} {color target count : String}
    (spelled : l.words = ["if", color, "hits", target, count, "times"]) {digits : List Nat}
    (written : CountWritten count.toList digits) (small : ofDigits digits ≤ 2 ^ 53)
    {actions : List Action} (gives : l.Gives c actions) :
    actions = if ofDigits digits ≤ m then [.bounce] else [] := by
  have fits := Binary64.ofInt?_natCast few
  have counted := Binary64.ofInt?_natCast small
  have asked := gives.asked (hits ▸ fits)
  rw [spelled, reaction?_condition, count?, countDigits?_eq_some_iff.2 written, Option.bind_some,
    counted, Option.map_some, Option.some.injEq] at asked
  rw [← asked]
  simp only [Binary64.le_iff_of_ofInt? small few counted fits]

/-- A line `if C hits T N times` of a program gives its bounce in the collisions of a ball from
    the `N`th one on, and none before; the other lines give what they give without it. -/
theorem bounces_from_count {source : String} {p : Program} (read : Script.read source = .ok p)
    {before after : List Line} {l : Line} (lines : statementLines source = before ++ l :: after)
    {color target count : String}
    (spelled : l.words = ["if", color, "hits", target, count, "times"]) {digits : List Nat}
    (written : CountWritten count.toList digits) (small : ofDigits digits ≤ 2 ^ 53)
    {turns : List (Engine × Operation)} {b : Ball} {q : Position} {m : Nat}
    (kept : ∀ turn ∈ turns,
      turn.2.forgetsBalls = false ∧ turn.2.countsBall b.identity = false)
    (nth : (turns.countP fun turn => turn.2.collidesBall b.identity) + 1 = m)
    (few : m ≤ 2 ^ 53) {op : Operation} (runs : op.Runs p b q) (g : Engine) :
    let s := ({} : Store).performAll turns
    let c := (s.countHit b.identity q).context b q
    let share : List Action := if ofDigits digits ≤ m then [.bounce] else []
    ∃ earlier later, List.Forall₂ (Line.Gives c) before earlier ∧ l.Gives c share ∧
      List.Forall₂ (Line.Gives c) after later ∧
      ((⟨s, g⟩ : Executor).perform op).result =
        .ok (.actions (earlier.flatten ++ share ++ later.flatten)) := by
  intro s c share
  -- The context has the hit of this collision as well as those of the turns before it.
  have hits : c.ballHits = m := by
    rw [s.ballHits_context_countHit b q, Store.ballHits_performAll {} kept, ← nth]
    simp [Store.ballHits]
  have statements := statements_of_read read
  obtain ⟨shares, -, gives⟩ := shares_of_statements (hits ▸ Binary64.ofInt?_natCast few) statements
  have result := Operation.result_of_runs runs ⟨s, g⟩ (execAll_of_gives statements gives)
  -- The line divides the shares as it divides the lines.
  rw [lines] at gives
  have earlier := (List.forall₂_take_append _ _ _ gives.flip).flip
  have rest := (List.forall₂_drop_append _ _ _ gives.flip).flip
  obtain ⟨actions, later, first, others, divided⟩ := List.forall₂_cons_left_iff.1 rest
  obtain rfl : actions = share := share_of_condition hits few spelled written small first
  have whole : shares.flatten = (shares.take before.length).flatten ++ share ++ later.flatten := by
    rw [List.append_assoc, ← List.flatten_cons, ← divided, ← List.flatten_append,
      List.take_append_drop]
  exact ⟨_, later, earlier, first, others, whole ▸ result⟩

/-- The third collision of a ball, after one with the same script and one with another program
    on another square, a collision of another ball, and calls that forget the hits of the
    square and the variables. -/
theorem bounces_from_count_third_collision :
    let source := "def p\nset speed 2\nif red hits wall +3 times\nreturn\nif a hits b 1 times"
    let ball (identity : String) : Ball := ⟨identity, .zero, .zero, .zero, .right, "red", by decide⟩
    let g : Engine := { source := fun _ => .zero }
    let other : Program := ⟨"other", [.setVariable "v" (.ball .hitCount)], none⟩
    let turns : List (Engine × Operation) :=
      [(g, .collideScript source (ball "a") ⟨0, 0⟩), (g, .collideScript source (ball "b") ⟨0, 0⟩),
        (g, .collide other (ball "a") ⟨1, 0⟩), (g, .resetHits ⟨0, 0⟩), (g, .execute other {}),
        (g, .resetVariables)]
    let first : Line := ⟨2, "set speed 2".toList⟩
    let l : Line := ⟨3, "if red hits wall +3 times".toList⟩
    statementLines source = [first] ++ l :: [] ∧
      l.words = ["if", "red", "hits", "wall", "+3", "times"] ∧
      CountWritten "+3".toList [3] ∧ ofDigits [3] ≤ 2 ^ 53 ∧
      (∀ turn ∈ turns, turn.2.forgetsBalls = false ∧ turn.2.countsBall "a" = false) ∧
      (turns.countP fun turn => turn.2.collidesBall "a") + 1 = 3 ∧
      ∃ p, Script.read source = .ok p ∧ ∃ earlier later : List (List Action),
        ((⟨({} : Store).performAll turns, g⟩ : Executor).perform
          (.collide p (ball "a") ⟨0, 0⟩)).result =
            .ok (.actions (earlier.flatten ++ [.bounce] ++ later.flatten)) := by
  intro source ball g other turns first l
  have lines : statementLines source = [first] ++ l :: [] := by decide +kernel
  have spelled : l.words = ["if", "red", "hits", "wall", "+3", "times"] := by decide +kernel
  have written : CountWritten "+3".toList [3] :=
    countDigits?_eq_some_iff.1 (by decide +kernel)
  have small : ofDigits [3] ≤ 2 ^ 53 := by decide
  have kept : ∀ turn ∈ turns,
      turn.2.forgetsBalls = false ∧ turn.2.countsBall "a" = false := by
    simp [turns, Operation.forgetsBalls, Operation.countsBall]
  have nth : (turns.countP fun turn => turn.2.collidesBall "a") + 1 = 3 := by decide +kernel
  have unfaulted : fault? (Script.read source) = none := by decide +kernel
  obtain ⟨p, read⟩ := fault?_eq_none_iff.1 unfaulted
  obtain ⟨earlier, later, -, -, -, result⟩ := bounces_from_count read lines spelled written small
    (b := ball "a") (q := ⟨0, 0⟩) kept nth (by decide) .given g
  exact ⟨lines, spelled, written, small, kept, nth, p, read, earlier, later, result⟩

end Script

end Carom
