import Carom.Proofs.Collision
import Carom.Proofs.Script.Acceptance

/-!
# What a script means

A script asks, line by line, for actions that depend only on how often the ball has hit and
on its speed (`reaction?`, `meaning?`). That is what a collision with the script gives, and
besides it only counts the hit: a script cannot write a variable, draws no random number and
never takes a fallback (`collideScript_meaning`).
-/

namespace Carom

namespace Script

open Text

/-! ## The meaning of a text -/

/-- The number that a word is written as. -/
def number? (word : String) : Option Binary64 :=
  (Numeral.read? digit? word.toList).map Numeral.toNumber

/-- The number of hits that a word is written as. -/
def count? (word : String) : Option Binary64 :=
  (countDigits? word.toList).bind fun digits => Binary64.ofInt? (ofDigits digits)

/-- What the words of a line ask for if the ball has hit that often and has that speed. -/
def reaction? (hits speed : Binary64) : List String → Option (List Action)
  | ["if", _, "hits", _, count, "times"] =>
    (count? count).map fun n => if n ≤ hits then [.bounce] else []
  | ["set", "speed", value] => (number? value).map fun n => [.setSpeed n]
  | ["set", "speed", "relative", value] =>
    (number? value).map fun n => [.setSpeed (speed + n)]
  | ["set", "direction", word] => (Direction.ofWord? word).map fun d => [.setDirection d]
  | _ => none

section

variable (hits speed : Binary64)

theorem reaction?_condition (color target count : String) :
    reaction? hits speed ["if", color, "hits", target, count, "times"] =
      (count? count).map fun n => if n ≤ hits then [.bounce] else [] := rfl

theorem reaction?_speed (value : String) :
    reaction? hits speed ["set", "speed", value] =
      (number? value).map fun n => [.setSpeed n] := rfl

theorem reaction?_change (value : String) :
    reaction? hits speed ["set", "speed", "relative", value] =
      (number? value).map fun n => [.setSpeed (speed + n)] := rfl

theorem reaction?_direction (word : String) :
    reaction? hits speed ["set", "direction", word] =
      (Direction.ofWord? word).map fun d => [.setDirection d] := rfl

end

/-- The words of a line. -/
def Line.words (l : Line) : List String := (Text.words l.text).map String.ofList

/-- The lines between the first one and the one that ends the program, if there is one. -/
def statementLines (source : String) : List Line :=
  (significant source.toList).tail.takeWhile fun l => !l.isReturn

/-- What a text asks for. -/
def meaning? (source : String) (hits speed : Binary64) : Option (List Action) :=
  ((statementLines source).mapM fun l => reaction? hits speed l.words).map List.flatten

/-! ## The meaning of a program that was read -/

/-- A hit count in range is the number that it is. -/
theorem eval_hitCount {c : Context} {hits : Binary64}
    (fits : Binary64.ofInt? c.ballHits = some hits) (g : Engine) :
    (Expression.ball .hitCount).eval c g = .ok (.number hits) g := by
  rw [Expression.eval]
  unfold BallProperty.read
  dsimp only
  rw [fits]
  rfl

/-- A condition compares the hits of the ball, as the run sees them, and bounces or does
    nothing. -/
theorem exec_bounceFrom {c : Context} {hits : Binary64}
    (fits : Binary64.ofInt? c.ballHits = some hits) (n : Binary64) (g : Engine) :
    (bounceFrom n).exec ⟨c, g⟩ = .ok (if n ≤ hits then [.bounce] else []) ⟨c, g⟩ := by
  have value : (Expression.binary .ge (.ball .hitCount) (.number n)).eval c g =
      .ok (.boolean (decide (n ≤ hits))) g := by
    rw [Expression.eval]
    simp only [bind, EStateM.bind, eval_hitCount fits]
    rfl
  rw [bounceFrom, Instruction.exec]
  -- The value decides the branch, so it is settled before the instruction runs on.
  by_cases reached : n ≤ hits
  · rw [decide_eq_true reached] at value
    simp only [bind, EStateM.bind, Execution.evaluate, value, if_pos reached]
    rfl
  · rw [decide_eq_false reached] at value
    simp only [bind, EStateM.bind, Execution.evaluate, value, if_neg reached]
    rfl

/-- An instruction does what the words ask for that spell it, and changes nothing. -/
theorem exec_of_spells {ws : List (List Char)} {i : Instruction} (h : Spells ws i) {c : Context}
    {hits : Binary64} (fits : Binary64.ofInt? c.ballHits = some hits) :
    ∃ actions, reaction? hits c.ballSpeed (ws.map String.ofList) = some actions ∧
      ∀ g, i.exec ⟨c, g⟩ = .ok actions ⟨c, g⟩ := by
  cases h with
  | @condition color target count digits n read short some =>
    refine ⟨if n ≤ hits then [.bounce] else [], ?_, exec_bounceFrom fits n⟩
    simp only [List.map_cons, List.map_nil, String.ofList_toList]
    rw [reaction?_condition, count?, String.toList_ofList, read, Option.bind_some, some,
      Option.map_some]
  | @speed value n read =>
    refine ⟨[.setSpeed n.toNumber], ?_, fun _ => rfl⟩
    simp only [List.map_cons, List.map_nil, String.ofList_toList]
    rw [reaction?_speed, number?, String.toList_ofList, read, Option.map_some, Option.map_some]
  | @change value n read =>
    refine ⟨[.setSpeed (c.ballSpeed + n.toNumber)], ?_, fun _ => rfl⟩
    simp only [List.map_cons, List.map_nil, String.ofList_toList]
    rw [reaction?_change, number?, String.toList_ofList, read, Option.map_some, Option.map_some]
  | @direction word d read =>
    refine ⟨[.setDirection d], ?_, fun _ => rfl⟩
    simp only [List.map_cons, List.map_nil, String.ofList_toList]
    rw [reaction?_direction, read, Option.map_some]

/-- What a line gives in a context, where it changes nothing. -/
def Line.Gives (c : Context) (l : Line) (actions : List Action) : Prop :=
  ∃ i, l.statement = .ok i ∧ ∀ g, i.exec ⟨c, g⟩ = .ok actions ⟨c, g⟩

/-- A line that can be read gives what its words ask for. -/
theorem Line.gives_of_statement {l : Line} {i : Instruction} (h : l.statement = .ok i)
    {c : Context} {hits : Binary64} (fits : Binary64.ofInt? c.ballHits = some hits) :
    ∃ actions, reaction? hits c.ballSpeed l.words = some actions ∧ l.Gives c actions := by
  obtain ⟨actions, asked, runs⟩ := exec_of_spells (statement_eq_ok_iff.1 h).2 fits
  exact ⟨actions, asked, i, h, runs⟩

/-- The instructions of some lines give what the lines give, in order. -/
theorem execAll_of_gives {c : Context} {ls : List Line} {block : List Instruction}
    {shares : List (List Action)}
    (read : List.Forall₂ (fun l i => Line.statement l = .ok i) ls block)
    (gives : List.Forall₂ (Line.Gives c) ls shares) (g : Engine) :
    Instruction.execAll block ⟨c, g⟩ = .ok shares.flatten ⟨c, g⟩ := by
  induction read generalizing shares with
  | nil =>
    cases gives
    rfl
  | cons statement _ ih =>
    obtain _ | ⟨⟨i, statement', runs⟩, gives⟩ := gives
    obtain rfl := Except.ok.inj (statement.symm.trans statement')
    rw [Instruction.execAll]
    simp only [bind, EStateM.bind, runs, ih gives]
    rfl

/-- Each of some lines that can be read gives what its words ask for. -/
theorem shares_of_statements {c : Context} {hits : Binary64}
    (fits : Binary64.ofInt? c.ballHits = some hits) {ls : List Line} {block : List Instruction}
    (read : List.Forall₂ (fun l i => Line.statement l = .ok i) ls block) :
    ∃ shares, (ls.mapM fun l => reaction? hits c.ballSpeed l.words) = some shares ∧
      List.Forall₂ (Line.Gives c) ls shares := by
  induction read with
  | nil => exact ⟨[], rfl, .nil⟩
  | cons statement _ ih =>
    obtain ⟨shares, asked, gives⟩ := ih
    obtain ⟨actions, askedFirst, givesFirst⟩ := Line.gives_of_statement statement fits
    refine ⟨actions :: shares, ?_, .cons givesFirst gives⟩
    rw [List.mapM_cons, askedFirst, asked]
    rfl

/-- The instructions of a program that was read come from the statements of its text. -/
theorem statements_of_read {source : String} {p : Program} (h : Script.read source = .ok p) :
    List.Forall₂ (fun l i => Line.statement l = .ok i) (statementLines source)
      p.instructions := by
  obtain ⟨first, rest, lines, -, statements, -⟩ := read_eq_ok_iff.1 h
  rwa [statementLines, lines]

/-- A program that was read does what its text asks for. -/
theorem run_of_read {source : String} {p : Program} (h : Script.read source = .ok p)
    {c : Context} {hits : Binary64} (fits : Binary64.ofInt? c.ballHits = some hits) :
    ∃ actions, meaning? source hits c.ballSpeed = some actions ∧
      ∀ g, p.run ⟨c, g⟩ = .ok actions ⟨c, g⟩ := by
  have statements := statements_of_read h
  obtain ⟨shares, asked, gives⟩ := shares_of_statements fits statements
  refine ⟨shares.flatten, ?_, execAll_of_gives statements gives⟩
  rw [meaning?, asked, Option.map_some]

end Script

open Script in
/-- A collision with a script gives what the text asks for at this hit of the ball, counts
    the hit and does nothing else; it does so on any engine. A text that cannot be read
    changes nothing. -/
theorem Store.collideScript_meaning (s : Store) (source : String) (b : Ball) (place : Position) :
    (∀ p hits, Script.read source = .ok p →
      Binary64.ofInt? (s.ballHits b.identity + 1) = some hits →
      ∃ actions, meaning? source hits b.speed = some actions ∧
        (∃ t notices, s.collideScript source b place = (.ok actions, t, notices) ∧
          s.OneHit t b.identity place ∧ ∀ m, .mishap m ∉ notices) ∧
        ∀ g, (Executor.collide ⟨s, g⟩ p b place).result = .ok actions ∧
          s.OneHit (Executor.collide ⟨s, g⟩ p b place).executor.store b.identity place ∧
          (Executor.collide ⟨s, g⟩ p b place).executor.engine.drawn = g.drawn ∧
          (Executor.collide ⟨s, g⟩ p b place).executor.engine.tally = g.tally) ∧
    ∀ e, Script.read source = .error e →
      s.collideScript source b place = (.error (.unreadable e), s, []) := by
  constructor
  · intro p hits read fits
    rw [← s.ballHits_context_countHit b place] at fits
    obtain ⟨actions, means, runs⟩ := run_of_read read fits
    -- The program changes nothing, so the hit is all that is left of the collision.
    have collides (g : Engine) := Executor.collide_of_unchanged ⟨s, g⟩ runs
    have answers : s.collideScript source b place = (.ok actions, s.countHit b.identity place,
        [.collision b.identity ((s.countHit b.identity place).ballHits b.identity) place.x place.y
          ((s.countHit b.identity place).squareHits place)]) := by
      simp only [Store.collideScript, read, collides]
      rfl
    refine ⟨actions, means, ⟨_, _, answers, s.oneHit_countHit _ _, ?_⟩, ?_⟩
    · intro m noticed
      cases List.mem_singleton.1 noticed
    · intro g
      rw [collides g]
      exact ⟨rfl, s.oneHit_countHit _ _, rfl, rfl⟩
  · intro e read
    simp only [Store.collideScript, read]

/-- A script of three statements, and the first hit of a ball. -/
theorem Store.collideScript_meaning_first_hit :
    let source := "def fast\nif red hits wall 3 times\nset speed relative 0.5\n" ++
      "set direction up-left\nreturn\nset speed 9"
    let b : Ball := ⟨"a", .zero, .zero, .zero, .right, "red", by decide⟩
    ∃ p hits actions, Script.read source = .ok p ∧
      Binary64.ofInt? (({} : Store).ballHits "a" + 1) = some hits ∧
      Script.meaning? source hits b.speed = some actions ∧
      (({} : Store).collideScript source b ⟨0, 0⟩).1 = .ok actions := by
  intro source b
  have unfaulted : Script.fault? (Script.read source) = none := by decide +kernel
  obtain ⟨p, read⟩ := Script.fault?_eq_none_iff.1 unfaulted
  have first : (Binary64.ofInt? (({} : Store).ballHits "a" + 1)).isSome = true := by
    decide +kernel
  obtain ⟨hits, fits⟩ := Option.isSome_iff_exists.1 first
  obtain ⟨actions, means, ⟨t, notices, answers, -⟩, -⟩ :=
    (Store.collideScript_meaning {} source b ⟨0, 0⟩).1 p hits read fits
  refine ⟨p, hits, actions, read, fits, means, ?_⟩
  rw [answers]

end Carom
