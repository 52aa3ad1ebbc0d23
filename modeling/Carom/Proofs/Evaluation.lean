import Carom.Proofs.Domain
import Carom.Proofs.Isolation

/-!
# What an evaluation draws and records

An expression draws as many random numbers as it has ranges that are not empty, whatever they turn
out to be. So its value can be told without an engine, from the context, the random numbers and the
count of those that were drawn before it (`Expression.valueAt`), and so can the fallbacks, in the
order in which they come up (`Expression.mishapsAt`) and the operations with the values that they
are applied to (`Expression.applicationsAt`).

* `map_fallback_mishap?`: what is wrong with an operation is told by the kinds of its operands, and
  by the divisor where they are numbers.
* `eval_eq`: evaluation gives the value and leaves the engine after the draws and the fallbacks.
* `countsNodesOnce`: so each node of an expression is drawn for or counted once, if at all.
-/

namespace Carom

/-! ## Operations -/

namespace BinaryOp

/-- The kind of the result on operands of these kinds; there is none if the operation is not
    defined on them. -/
def kind? (op : BinaryOp) : Kind → Kind → Option Kind
  | .number, .number => match op with
    | add | sub | mul | div | mod => some .number
    | eq | ne | lt | gt | le | ge => some .boolean
    | and | or => none
  | .boolean, .boolean => match op with
    | and | or | eq | ne => some .boolean
    | _ => none
  | _, _ => none

/-- Whether the operation is a division, for a quotient or a remainder, of a number by zero. -/
def dividesByZero (op : BinaryOp) : Value → Value → Bool
  | .number _, .number b => (op == div || op == mod) && b == Binary64.zero
  | _, _ => false

/-- The result of an operation, or what stands in for it. -/
def result (op : BinaryOp) (a b : Value) : Value :=
  match op.onValues a b with
  | .ok v => v
  | .error m => m.standIn

/-- What is wrong with an operation, if anything is. -/
def mishap? (op : BinaryOp) (a b : Value) : Option Mishap :=
  match op.onValues a b with
  | .ok _ => none
  | .error m => some m

/-- An operation gives its result and records what is wrong with it. -/
theorem compute_eq (op : BinaryOp) (a b : Value) (g : Engine) :
    op.compute a b g = .ok (op.result a b) (g.recordAll (op.mishap? a b).toList) := by
  rw [compute, result, mishap?]
  cases op.onValues a b <;> rfl

/-- The operands of an operation are of the wrong kinds, or the divisor is zero, or nothing is
    wrong. -/
theorem map_fallback_mishap? (op : BinaryOp) (a b : Value) :
    (op.mishap? a b).map Mishap.fallback =
      if (op.kind? a.kind b.kind).isNone then some .typeMismatch
      else if op.dividesByZero a b then some .divisionByZero
      else none := by
  cases a with
  | number m =>
    cases b with
    | number n =>
      -- Two numbers are operands of the right kind for all but the connectives, and divide unless
      -- the second one is zero.
      by_cases zero : n == Binary64.zero <;>
        cases op <;>
          simp [mishap?, onValues, onNumbers, kind?, dividesByZero, Value.kind, zero,
            Binary64.quotient?, Binary64.remainder?, Mishap.fallback]
    | _ => rfl
  | boolean p =>
    cases b with
    | boolean q => cases op <;> rfl
    | _ => rfl
  | _ => rfl

/-- Where a number is divided by zero, the operands are not of the wrong kinds. -/
theorem not_isNone_kind?_of_dividesByZero {op : BinaryOp} {a b : Value}
    (h : op.dividesByZero a b = true) : (op.kind? a.kind b.kind).isNone = false := by
  cases a with
  | number m =>
    cases b with
    | number n =>
      rw [dividesByZero, Bool.and_eq_true, Bool.or_eq_true, beq_iff_eq, beq_iff_eq] at h
      obtain ⟨rfl | rfl, -⟩ := h <;> rfl
    | _ => cases h
  | _ => cases h

/-- The result is of the kind that the operands tell. -/
theorem kind_result {op : BinaryOp} {a b : Value} {k : Kind}
    (h : op.kind? a.kind b.kind = some k) : (op.result a b).kind = k := by
  cases a with
  | number m =>
    cases b with
    | number n =>
      by_cases zero : n == Binary64.zero <;>
        cases op <;>
          simp_all [result, onValues, onNumbers, kind?, Value.kind, Binary64.quotient?,
            Binary64.remainder?, Mishap.standIn, Value.zero]
    | _ => cases h
  | boolean p =>
    cases b with
    | boolean q => cases op <;> simp_all [result, onValues, onBooleans, kind?, Value.kind]
    | _ => cases h
  | _ => cases h

end BinaryOp

/-- The number that an integer is, if there is one, is the nearest one. -/
theorem Binary64.eq_ofInt_of_ofInt? {z : Int} {n : Binary64} (h : ofInt? z = some n) :
    n = ofInt z := by
  unfold ofInt? at h
  generalize ofInt z = m at h ⊢
  obtain ⟨-, same⟩ := Option.ite_none_right_eq_some.1 h
  exact (Option.some.inj same).symm

/-! ## Engines after draws and fallbacks -/

namespace Engine

/-- Each fallback is one entry of the journal, the last one in front. -/
theorem journal_recordAll (g : Engine) (ms : List Mishap) :
    (g.recordAll ms).journal = ms.reverse.map .mishap ++ g.journal := by
  induction ms generalizing g with
  | nil => rfl
  | cons m ms ih =>
    rw [List.reverse_cons, List.map_append, List.append_assoc]
    exact ih (g.record m)

theorem drawn_after (g : Engine) (draws : Nat) (ms : List Mishap) :
    (g.after draws ms).drawn = g.drawn + draws := rfl

theorem source_after (g : Engine) (draws : Nat) (ms : List Mishap) :
    (g.after draws ms).source = g.source := g.source_recordAll ms

/-- Fallbacks that are recorded later come behind those before. -/
theorem recordAll_after (g : Engine) (draws : Nat) (ms more : List Mishap) :
    (g.after draws ms).recordAll more = g.after draws (ms ++ more) := by
  induction more generalizing ms with
  | nil => rw [List.append_nil, recordAll, List.foldl_nil]
  | cons m more ih =>
    rw [List.append_cons, ← ih, ← record_after]
    rfl

/-- Draws and fallbacks add up. -/
theorem after_after (g : Engine) (draws draws' : Nat) (ms ms' : List Mishap) :
    (g.after draws ms).after draws' ms' = g.after (draws + draws') (ms ++ ms') := by
  rw [after, recordAll_after, drawn_after, Nat.add_assoc]
  rfl

theorem journal_after (g : Engine) (draws : Nat) (ms : List Mishap) :
    (g.after draws ms).journal = ms.reverse.map .mishap ++ g.journal := g.journal_recordAll ms

end Engine

/-! ## Expressions -/

/-- The value of a property of the ball; a hit count that is out of range counts as infinite. -/
def BallProperty.value (c : Context) : BallProperty → Value
  | speed => .number c.ballSpeed
  | direction => .direction c.ballDirection
  | x => .number c.ballX
  | y => .number c.ballY
  | hitCount => .number (Binary64.ofInt c.ballHits)

/-- An operation with the values that it is applied to. -/
structure Application where
  op : BinaryOp
  left : Value
  right : Value

namespace Application

/-- Whether the operation is not defined on the kinds of its operands. -/
def isMismatch (a : Application) : Bool := (a.op.kind? a.left.kind a.right.kind).isNone

/-- Whether a number is divided by zero. -/
def dividesByZero (a : Application) : Bool := a.op.dividesByZero a.left a.right

/-- How often an operation is counted as a fallback of a kind. -/
theorem countP_mishap? (a : Application) (f : Fallback) :
    ((a.op.mishap? a.left a.right).toList.countP fun m => m.fallback = f) =
      match f with
      | .typeMismatch => if a.isMismatch then 1 else 0
      | .divisionByZero => if a.dividesByZero then 1 else 0
      | _ => 0 := by
  have kind := a.op.map_fallback_mishap? a.left a.right
  have apart := @BinaryOp.not_isNone_kind?_of_dividesByZero a.op a.left a.right
  rw [isMismatch, dividesByZero]
  -- All that matters of the operands is which of the two is the case; both cannot be.
  generalize a.op.mishap? a.left a.right = m? at kind ⊢
  generalize (a.op.kind? a.left.kind a.right.kind).isNone = mismatch at kind apart ⊢
  generalize a.op.dividesByZero a.left a.right = zero at kind apart ⊢
  cases m? <;> cases mismatch <;> cases zero <;> simp_all <;> cases f <;> simp_all

end Application

namespace Expression

/-- All nodes of an expression, each of them once, the operands before their operation. -/
def nodes : Expression → List Expression
  | binary op left right => left.nodes ++ right.nodes ++ [binary op left right]
  | e => [e]

/-- A range that holds a number. -/
def isRange : Expression → Bool
  | random min max => decide (min < max)
  | _ => false

/-- A range that holds no number. -/
def isEmptyRange : Expression → Bool
  | random min max => !decide (min < max)
  | _ => false

/-- A variable that has no value. -/
def isUnset (c : Context) : Expression → Bool
  | var name => c.variables[name]?.isNone
  | _ => false

/-- How many random numbers an expression draws. -/
def draws (e : Expression) : Nat := e.nodes.countP isRange

/-- The value of an expression, where `n` random numbers were drawn before. The left operand draws
    first. -/
def valueAt (c : Context) (source : Nat → Binary64) : Expression → Nat → Value
  | literal v, _ => v
  | var name, _ => c.variables[name]?.getD .zero
  | binary op left right, n =>
    op.result (left.valueAt c source n) (right.valueAt c source (n + left.draws))
  | ball property, _ => property.value c
  | random min max, n =>
    .number (if min < max then Binary64.between min max (source n) else min)

/-- The operations of an expression with the values of their operands, where `n` random numbers
    were drawn before. -/
def applicationsAt (c : Context) (source : Nat → Binary64) : Expression → Nat → List Application
  | binary op left right, n =>
    left.applicationsAt c source n ++ right.applicationsAt c source (n + left.draws) ++
      [⟨op, left.valueAt c source n, right.valueAt c source (n + left.draws)⟩]
  | _, _ => []

/-- What goes wrong in an evaluation, where `n` random numbers were drawn before. -/
def mishapsAt (c : Context) (source : Nat → Binary64) : Expression → Nat → List Mishap
  | var name, _ => if c.variables[name]?.isNone then [.unsetVariable name] else []
  | binary op left right, n =>
    left.mishapsAt c source n ++ right.mishapsAt c source (n + left.draws) ++
      (op.mishap? (left.valueAt c source n) (right.valueAt c source (n + left.draws))).toList
  | random min max, _ => if min < max then [] else [.emptyRange min max]
  | _, _ => []

/-- How many nodes of an expression are counted as fallbacks of a kind, where `n` random numbers
    were drawn before. -/
def fallbacksAt (c : Context) (source : Nat → Binary64) (e : Expression) (n : Nat) :
    Fallback → Nat
  | .unresolvedVariable => e.nodes.countP (isUnset c)
  | .typeMismatch => (e.applicationsAt c source n).countP Application.isMismatch
  | .divisionByZero => (e.applicationsAt c source n).countP Application.dividesByZero
  | .droppedInstruction => 0
  | .emptyRandomRange => e.nodes.countP isEmptyRange

variable {c : Context} {source : Nat → Binary64}

/-- Both operands of an operation draw, whatever the operation is. -/
theorem draws_binary (op : BinaryOp) (left right : Expression) :
    (binary op left right).draws = left.draws + right.draws := by
  simp [draws, nodes, isRange]

/-- A range draws one number, unless it is empty. -/
theorem draws_random (min max : Binary64) :
    (random min max).draws = if min < max then 1 else 0 := by
  simp [draws, nodes, isRange, List.countP_cons]

/-- The operations are those of the expression, each of them once. -/
theorem map_op_applicationsAt (e : Expression) (n : Nat) :
    (e.applicationsAt c source n).map Application.op =
      e.nodes.filterMap fun | binary op _ _ => some op | _ => none := by
  induction e generalizing n with
  | binary op left right ihLeft ihRight =>
    simp [applicationsAt, nodes, ihLeft, ihRight]
  | _ => rfl

/-- What goes wrong is what is counted. -/
theorem countP_mishapsAt (e : Expression) (n : Nat) (f : Fallback) :
    ((e.mishapsAt c source n).countP fun m => m.fallback = f) = e.fallbacksAt c source n f := by
  induction e generalizing n with
  | literal v => cases f <;> rfl
  | var name =>
    -- Only a variable without a value is counted, and as no other kind of fallback.
    cases h : c.variables[name]? <;>
      cases f <;> simp [mishapsAt, fallbacksAt, nodes, applicationsAt, isUnset, isEmptyRange, h,
        Mishap.fallback]
  | binary op left right ihLeft ihRight =>
    rw [mishapsAt, List.countP_append, List.countP_append, ihLeft, ihRight,
      Application.countP_mishap? ⟨op, _, _⟩]
    cases f <;>
      simp [fallbacksAt, nodes, applicationsAt, isUnset, isEmptyRange, List.countP_cons,
        Nat.add_assoc]
  | ball p => cases f <;> rfl
  | random min max =>
    by_cases h : min < max <;>
      cases f <;> simp [mishapsAt, fallbacksAt, nodes, applicationsAt, isUnset, isEmptyRange, h,
        Mishap.fallback]

/-- A hit count that can be read is in range. -/
theorem exists_ofInt?_of_readable (readable : (ball .hitCount).overflow? c = none) :
    ∃ n, Binary64.ofInt? c.ballHits = some n := by
  refine Option.ne_none_iff_exists'.1 fun overflow => ?_
  have read : c.HitsOverflow ∧ Use.ball .hitCount ∈ (ball .hitCount).reads :=
    ⟨(Binary64.ofInt?_eq_none_iff c.ballHits).1 overflow, List.mem_singleton_self _⟩
  rw [overflow?, if_pos read] at readable
  cases readable

/-- Evaluation gives the value, and leaves the engine after the draws and the fallbacks, unless it
    reads a hit count that is out of range. -/
theorem eval_eq {e : Expression} (readable : e.overflow? c = none) (g : Engine) :
    e.eval c g = .ok (e.valueAt c g.source g.drawn)
      (g.after e.draws (e.mishapsAt c g.source g.drawn)) := by
  induction e generalizing g with
  | literal v => rfl
  | var name =>
    rw [eval, valueAt, mishapsAt]
    cases c.variables[name]? <;> rfl
  | binary op left right ihLeft ihRight =>
    rw [overflow?_binary, Option.or_eq_none_iff] at readable
    obtain ⟨readableLeft, readableRight⟩ := readable
    -- The right operand begins with the engine that the left one leaves.
    simp only [eval, bind, EStateM.bind, ihLeft readableLeft, ihRight readableRight, op.compute_eq,
      Engine.source_after, Engine.drawn_after, Engine.after_after, Engine.recordAll_after,
      draws_binary, valueAt, mishapsAt]
  | ball p =>
    cases p with
    | hitCount =>
      obtain ⟨n, fits⟩ := exists_ofInt?_of_readable readable
      have same := Binary64.eq_ofInt_of_ofInt? fits
      unfold eval BallProperty.read valueAt BallProperty.value
      simp only [fits, ← same]
      rfl
    | _ => rfl
  | random min max =>
    rw [eval, valueAt, mishapsAt, draws_random]
    by_cases h : min < max
    · rw [if_pos h, if_pos h, if_pos h, if_pos h]
      rfl
    · rw [if_neg h, if_neg h, if_neg h, if_neg h]
      rfl

/-- What an evaluation in a run gives, if it does not fail. It is the engine alone that changes. -/
theorem valueAt_of_evaluate {e : Expression} {s t : Scene} {v : Value}
    (h : Execution.evaluate e s = .ok v t) :
    v = e.valueAt s.context s.engine.source s.engine.drawn ∧
      t = ⟨s.context, s.engine.after e.draws
        (e.mishapsAt s.context s.engine.source s.engine.drawn)⟩ := by
  -- It has not failed, so it reads no hit count that is out of range.
  have readable : e.overflow? s.context = none := by
    rw [← e.failsWith_eval s.context s.engine]
    simp only [Execution.evaluate] at h
    cases evaluated : e.eval s.context s.engine with
    | ok w g => rfl
    | error err g =>
      rw [evaluated] at h
      cases h
  simp only [Execution.evaluate, eval_eq readable] at h
  cases h
  exact ⟨rfl, rfl⟩

/-- What an evaluation in a context has drawn and recorded, if it began on the engine `g` and left
    the engine `t`. -/
structure CountsOnce (e : Expression) (c : Context) (g t : Engine) : Prop where
  /-- One number is drawn for each range that holds one. -/
  drawn : t.drawn = g.drawn + e.nodes.countP isRange
  /-- Each variable without a value is counted. -/
  unset : t.tally.unresolvedVariable = g.tally.unresolvedVariable + e.nodes.countP (isUnset c)
  /-- Each range that holds no number is counted. -/
  emptyRanges : t.tally.emptyRandomRange = g.tally.emptyRandomRange + e.nodes.countP isEmptyRange
  /-- Each division of a number by zero is counted. -/
  zeroDivisors : t.tally.divisionByZero = g.tally.divisionByZero +
    (e.applicationsAt c g.source g.drawn).countP Application.dividesByZero
  /-- Each operation that is not defined on the kinds of its operands is counted. -/
  mismatches : t.tally.typeMismatch = g.tally.typeMismatch +
    (e.applicationsAt c g.source g.drawn).countP Application.isMismatch
  /-- These are the operations of the expression, one for each node. -/
  operations : (e.applicationsAt c g.source g.drawn).map Application.op =
    e.nodes.filterMap fun | binary op _ _ => some op | _ => none
  /-- No instruction is dropped. -/
  dropped : t.tally.droppedInstruction = g.tally.droppedInstruction
  /-- For each fallback that is counted there is one entry in the journal, and there are no
      others. -/
  journal : ∃ ms : List Mishap, t.journal = ms.reverse.map .mishap ++ g.journal ∧
    ∀ f, t.tally.count f = g.tally.count f + ms.countP fun m => m.fallback = f

/-- If the hit count is in range, an evaluation has a value, and it has drawn and recorded for each
    node what is due to it, once. -/
theorem countsNodesOnce (e : Expression) {c : Context} (inRange : ¬c.HitsOverflow) (g : Engine) :
    ∃ t, e.eval c g = .ok (e.valueAt c g.source g.drawn) t ∧ e.CountsOnce c g t := by
  have readable : e.overflow? c = none := if_neg fun both => inRange both.1
  refine ⟨_, eval_eq readable g, ?_⟩
  generalize after : g.after e.draws (e.mishapsAt c g.source g.drawn) = t
  have tally (f : Fallback) :
      t.tally.count f = g.tally.count f + e.fallbacksAt c g.source g.drawn f := by
    rw [← after, Engine.count_after, countP_mishapsAt]
  exact
    { drawn := by rw [← after, Engine.drawn_after, draws]
      unset := tally .unresolvedVariable
      emptyRanges := tally .emptyRandomRange
      zeroDivisors := tally .divisionByZero
      mismatches := tally .typeMismatch
      operations := e.map_op_applicationsAt g.drawn
      dropped := tally .droppedInstruction
      journal := ⟨_, by rw [← after, Engine.journal_after], fun f => by
        rw [← after, Engine.count_after]⟩ }

/-- A conjunction of a number and a truth value, one of each kind of fallback below it. The number
    that is drawn comes second, after four others. -/
theorem countsNodesOnce_four_fallbacks :
    let e : Expression := .binary .and
      (.binary .mod (.random .zero .tolerance) (.var "v"))
      (.binary .lt (.random .tolerance .zero) (.ball .hitCount))
    let c : Context := { ballHits := 3 }
    let g : Engine := { source := fun _ => .zero, drawn := 4, tally := { typeMismatch := 2 } }
    ¬c.HitsOverflow ∧ ∃ t, e.eval c g = .ok (.boolean false) t ∧ e.CountsOnce c g t ∧
      t.drawn = 5 ∧ t.tally.unresolvedVariable = 1 ∧ t.tally.emptyRandomRange = 1 ∧
      t.tally.divisionByZero = 1 ∧ t.tally.typeMismatch = 3 := by
  intro e c g
  have inRange : ¬c.HitsOverflow := by decide +kernel
  obtain ⟨t, evaluated, counts⟩ := countsNodesOnce e inRange g
  have value : e.valueAt c g.source g.drawn = .boolean false := by decide +kernel
  rw [value] at evaluated
  refine ⟨inRange, t, evaluated, counts, ?_, ?_, ?_, ?_, ?_⟩
  · rw [counts.drawn]
    decide +kernel
  · rw [counts.unset]
    decide +kernel
  · rw [counts.emptyRanges]
    decide +kernel
  · rw [counts.zeroDivisors]
    decide +kernel
  · rw [counts.mismatches]
    decide +kernel

end Expression

end Carom
