import Carom.Proofs.Binary64.Range
import Carom.Proofs.Blocks

/-!
# Operations in their domain

There is no quotient by zero, no remainder by zero or of an infinite number, no whole part of a
number that is not finite, and no number for an integer out of range. The rules of the language
ask before they use one of these operations. To see that they ask often enough, the interpreter is
written once more on operations that fail where they are not defined (`Undefined`): the rules
(`quotientStrictly?` and the others), evaluation (`Expression.evalStrictly`) and execution
(`Instruction.execAllStrictly`).

* `evalStrictly_eq`, `execAllStrictly_eq`: this interpreter does the same as the one in use, so of
  its failures none is left but the hit count that no number holds.
* `failsOnHitsOnly`: and that one comes up iff an expression reads the hit count anywhere and it is
  out of range. A run that fails has read it.
-/

namespace Carom

/-- An operation that was used where it is not defined. -/
inductive Undefined where
  /-- The quotient by zero. -/
  | quotient
  /-- The remainder by zero or of an infinite number. -/
  | remainder
  /-- The whole part of a number that is not finite. -/
  | whole
  /-- The number for an integer out of range. -/
  | number (e : HitOverflow)
  deriving DecidableEq

/-! ## The rules on operations that may be undefined -/

namespace Binary64

/-- The quotient, unless the divisor is zero. -/
def divide (a b : Binary64) : Except Undefined Binary64 :=
  if b == Binary64.zero then .error .quotient else .ok (a / b)

/-- The remainder of division toward zero, unless the divisor is zero or the dividend is infinite.
    With nan as the other operand it is defined in either case. -/
def divideForRest : Binary64 → Binary64 → Except Undefined Binary64
  | nan, _ => .ok nan
  | _, nan => .ok nan
  | infinite _, _ => .error .remainder
  | a, b => if b == Binary64.zero then .error .remainder else .ok (a % b)

/-- The whole part, toward zero. -/
def whole (n : Binary64) : Except Undefined Int :=
  match n.truncate? with
  | some z => .ok z
  | none => .error .whole

/-- Not nan and not finite. -/
def isInfinite : Binary64 → Bool
  | infinite _ => true
  | _ => false

/-- The rule for quotients, on a division that may be undefined. -/
def quotientStrictly? (a b : Binary64) : Except Undefined (Option Binary64) :=
  if b == Binary64.zero then .ok none else (a.divide b).map some

/-- The rule for remainders, on a division that may be undefined: an infinite dividend is told apart
    first. -/
def remainderStrictly? (a b : Binary64) : Except Undefined (Option Binary64) :=
  if b == Binary64.zero then .ok none
  else if a.isInfinite then .ok (some nan)
  else (a.divideForRest b).map some

/-- The rule for the iterations of a loop: nan and the infinities are told apart before the whole
    part is taken. -/
def iterationsStrictly : Binary64 → Except Undefined Nat
  | nan => .ok 0
  | infinite negative => .ok (if negative then 0 else maxIterations)
  | n => n.whole.map fun z => min maxIterations z.toNat

/-- The rule for the index of a sample: only a finite number has one. -/
def indexStrictly? (n : Binary64) : Except Undefined (Option Nat) :=
  if n.isFinite then n.whole.map fun z => some z.toNat else .ok none

/-- A number that a hit count is. -/
def ofHits (hits : Int) : Except Undefined Binary64 :=
  match ofInt? hits with
  | some n => .ok n
  | none => .error (.number ⟨hits⟩)

/-- The rule for quotients divides by no zero. -/
theorem quotientStrictly?_eq (a b : Binary64) : a.quotientStrictly? b = .ok (a.quotient? b) := by
  rw [quotientStrictly?, quotient?, divide]
  split <;> rfl

/-- The rule for remainders divides neither by zero nor an infinite number. -/
theorem remainderStrictly?_eq (a b : Binary64) :
    a.remainderStrictly? b = .ok (a.remainder? b) := by
  rw [remainderStrictly?, remainder?]
  -- Behind the test for zero, only an infinite dividend could be undefined, and it has its own
  -- test.
  split
  · rfl
  · rename_i nonzero
    cases a with
    | nan => rfl
    | infinite s => cases b <;> rfl
    | finite s m fits =>
      cases b with
      | nan => rfl
      | _ =>
        simp only [divideForRest, if_neg nonzero]
        rfl

/-- The rule for iterations takes the whole part of finite numbers only. -/
theorem iterationsStrictly_eq (n : Binary64) : n.iterationsStrictly = .ok n.iterations := by
  cases n <;> rfl

/-- So does the rule for indices. -/
theorem indexStrictly?_eq (n : Binary64) : n.indexStrictly? = .ok n.index? := by
  cases n <;> rfl

/-- A number is its whole part iff it is a multiple of one. -/
theorem signed_div_mul_one_iff (negative : Bool) (quanta : Nat) :
    signed negative quanta = signed negative (quanta / one) * one ↔ one ∣ quanta := by
  have whole : (quanta : Int) = (quanta / one : Nat) * one ↔ one ∣ quanta := by
    rw [← Int.natCast_mul, Int.ofNat_inj, eq_comm, ← Nat.dvd_iff_div_mul_eq]
  cases negative with
  | false => exact whole
  | true => rw [← whole, signed, signed, if_pos rfl, if_pos rfl, Int.neg_mul, Int.neg_inj]

end Binary64

namespace Value

/-- As `Value.numberText`: a number that is not finite is told apart first. -/
def numberTextStrictly (n : Binary64) : Except Undefined String :=
  if n.isFinite then
    n.whole.map fun (z : Int) =>
      if n.position? = some (z * Binary64.one) ∧ z.natAbs < 10 ^ 16 then toString z else n.text
  else .ok n.text

/-- The text of a value, by that rule for numbers. -/
def textStrictly : Value → Except Undefined String
  | number n => numberTextStrictly n
  | v => .ok v.text

/-- And so does the text of a number: it is that of an integer iff the number is its own whole
    part. -/
theorem numberTextStrictly_eq (n : Binary64) : numberTextStrictly n = .ok (numberText n) := by
  cases n with
  | finite negative quanta fits =>
    have size : (Binary64.signed negative (quanta / Binary64.one)).natAbs =
        quanta / Binary64.one := by
      cases negative with
      | false => exact Int.natAbs_natCast _
      | true => exact (Int.natAbs_neg _).trans (Int.natAbs_natCast _)
    have bound : quanta / Binary64.one < 10 ^ 16 ↔ quanta < 10 ^ 16 * Binary64.one :=
      Nat.div_lt_iff_lt_mul Binary64.one_pos
    -- The test for an integer is on the quanta here and on the whole part there.
    have same : (.finite negative quanta fits : Binary64).position? =
        some (Binary64.signed negative (quanta / Binary64.one) * Binary64.one) ↔
          Binary64.one ∣ quanta := by
      rw [Binary64.position?, Option.some.injEq, Binary64.signed_div_mul_one_iff]
    simp only [numberTextStrictly, numberText, Binary64.whole, Binary64.isFinite,
      Binary64.truncate?, if_true, Except.map, size, bound, same]
  | _ => rfl

theorem textStrictly_eq (v : Value) : v.textStrictly = .ok v.text := by
  cases v with
  | number n => exact numberTextStrictly_eq n
  | _ => rfl

end Value

namespace BinaryOp

/-- An operation on two numbers. Only two of them may be undefined. -/
def onNumbersStrictly (op : BinaryOp) (a b : Binary64) : Except Undefined (Except Mishap Value) :=
  match op with
  | div => (a.quotientStrictly? b).map fun
    | some q => .ok (.number q)
    | none => .error (.zeroDivisor op)
  | mod => (a.remainderStrictly? b).map fun
    | some r => .ok (.number r)
    | none => .error (.zeroDivisor op)
  | _ => .ok (op.onNumbers a b)

/-- An operation on two values. Only that on two numbers may be undefined. -/
def onValuesStrictly (op : BinaryOp) : Value → Value → Except Undefined (Except Mishap Value)
  | .number a, .number b => op.onNumbersStrictly a b
  | a, b => .ok (op.onValues a b)

/-- No operation on two values is used where it is undefined. -/
theorem onValuesStrictly_eq (op : BinaryOp) (a b : Value) :
    op.onValuesStrictly a b = .ok (op.onValues a b) := by
  have onNumbers (m n : Binary64) : op.onNumbersStrictly m n = .ok (op.onNumbers m n) := by
    cases op with
    | div =>
      rw [onNumbersStrictly, Binary64.quotientStrictly?_eq]
      rfl
    | mod =>
      rw [onNumbersStrictly, Binary64.remainderStrictly?_eq]
      rfl
    | _ => rfl
  cases a with
  | number m =>
    cases b with
    | number n => exact onNumbers m n
    | _ => rfl
  | _ => rfl

end BinaryOp

/-! ## The interpreter on operations that may be undefined -/

variable {σ α β : Type}

/-- What has to be defined at this place of a run. -/
def demand (r : Except Undefined α) : EStateM Undefined σ α := fun s =>
  match r with
  | .ok a => .ok a s
  | .error e => .error e s

/-- The same run, whose failure is one of those that may come up. -/
def allowing (e : EStateM HitOverflow σ α) : EStateM Undefined σ α := fun s =>
  match e s with
  | .ok a t => .ok a t
  | .error err t => .error (.number err) t

theorem demand_ok (a : α) : demand (.ok a) = (pure a : EStateM Undefined σ α) := rfl

theorem allowing_pure (a : α) : allowing (pure a : EStateM HitOverflow σ α) = pure a := rfl

/-- The failure of a run in two parts is that of one of them. -/
theorem allowing_bind (e : EStateM HitOverflow σ α) (f : α → EStateM HitOverflow σ β) :
    allowing (e >>= f) = allowing e >>= fun a => allowing (f a) := by
  funext s
  simp only [allowing, bind, EStateM.bind]
  cases e s <;> rfl

/-- The result of an operation, or its stand-in. -/
def BinaryOp.computeStrictly (op : BinaryOp) (a b : Value) : EStateM Undefined Engine Value := do
  match ← demand (op.onValuesStrictly a b) with
  | .ok v => pure v
  | .error m => allowing (Evaluation.fallBack m m.standIn)

/-- The value of an expression. -/
def Expression.evalStrictly (c : Context) : Expression → EStateM Undefined Engine Value
  | binary op left right => do
    let a ← left.evalStrictly c
    let b ← right.evalStrictly c
    op.computeStrictly a b
  | ball .hitCount => do
    let n ← demand (Binary64.ofHits c.ballHits)
    pure (.number n)
  | e => allowing (e.eval c)

namespace Execution

/-- The value of an expression in the scene of a run. -/
def evaluateStrictly (e : Expression) : EStateM Undefined Scene Value := fun s =>
  match e.evalStrictly s.context s.engine with
  | .ok v g => .ok v { s with engine := g }
  | .error x g => .error x { s with engine := g }

/-- The actions of `n` runs, one after the other. -/
def repeatedStrictly (run : EStateM Undefined Scene (List Action)) :
    Nat → EStateM Undefined Scene (List Action)
  | 0 => pure []
  | n + 1 => do
    let actions ← run
    let more ← repeatedStrictly run n
    pure (actions ++ more)

end Execution

open Execution in
mutual

/-- Run one instruction. -/
def Instruction.execStrictly : Instruction → EStateM Undefined Scene (List Action)
  | .setSpeed value => do
    match ← evaluateStrictly value with
    | .number speed => pure [.setSpeed speed]
    | v => allowing (skip (.unusable (Instruction.setSpeed value).kind v.kind))
  | .setDirection value => do
    match ← evaluateStrictly value with
    | .direction d => pure [.setDirection d]
    | v => allowing (skip (.unusable (Instruction.setDirection value).kind v.kind))
  | .bounce => pure [.bounce]
  | .stop => pure [.stop]
  | .setVariable name value => do
    let v ← evaluateStrictly value
    allowing (assign name v)
  | .ifThen condition thenBlock => do
    let v ← evaluateStrictly condition
    if v.isTrue then Instruction.execAllStrictly thenBlock else pure []
  | .ifElse condition thenBlock elseBlock => do
    let v ← evaluateStrictly condition
    if v.isTrue then Instruction.execAllStrictly thenBlock
    else Instruction.execAllStrictly elseBlock
  | .loop count body => do
    match ← evaluateStrictly count with
    | .number n =>
      let times ← demand n.iterationsStrictly
      repeatedStrictly (Instruction.execAllStrictly body) times
    | v => allowing (skip (.loopCount v.kind))
  | .playSample index => do
    let v ← evaluateStrictly index
    match v with
    | .number n =>
      match ← demand n.indexStrictly? with
      | some i => pure [.playSample i]
      | none => allowing (skip (.unusable (Instruction.playSample index).kind v.kind))
    | _ => allowing (skip (.unusable (Instruction.playSample index).kind v.kind))
  | .spawnBall x y speed direction => do
    let vx ← evaluateStrictly x
    let vy ← evaluateStrictly y
    let vs ← evaluateStrictly speed
    let vd ← evaluateStrictly direction
    match vx, vy, vs, vd with
    | .number nx, .number ny, .number ns, .direction d => pure [.spawnBall nx ny ns d]
    | _, _, _, _ => allowing (skip (.unusableBall vx.kind vy.kind vs.kind vd.kind))
  | .print value => do
    let v ← evaluateStrictly value
    let text ← demand v.textStrictly
    pure [.print text]

/-- Run a block from top to bottom. -/
def Instruction.execAllStrictly : List Instruction → EStateM Undefined Scene (List Action)
  | [] => pure []
  | i :: rest => do
    let actions ← i.execStrictly
    let more ← Instruction.execAllStrictly rest
    pure (actions ++ more)

end

theorem BinaryOp.computeStrictly_eq (op : BinaryOp) (a b : Value) :
    op.computeStrictly a b = allowing (op.compute a b) := by
  rw [computeStrictly, onValuesStrictly_eq, demand_ok, pure_bind, compute]
  cases op.onValues a b <;> rfl

/-- Evaluation uses all operations in their domain, the conversion of the hit count excepted. -/
theorem Expression.evalStrictly_eq (c : Context) (e : Expression) :
    e.evalStrictly c = allowing (e.eval c) := by
  induction e with
  | binary op left right ihLeft ihRight =>
    simp only [evalStrictly, eval, ihLeft, ihRight, allowing_bind, op.computeStrictly_eq]
  | ball p =>
    cases p with
    | hitCount =>
      unfold evalStrictly eval BallProperty.read Binary64.ofHits
      dsimp only
      generalize Binary64.ofInt? c.ballHits = n?
      cases n? <;> rfl
    | _ => rfl
  | _ => rfl

namespace Execution

theorem evaluateStrictly_eq (e : Expression) :
    evaluateStrictly e = allowing (evaluate e) := by
  funext s
  simp only [evaluateStrictly, evaluate, allowing, e.evalStrictly_eq]
  cases e.eval s.context s.engine <;> rfl

/-- Repeated runs are used in their domain if one of them is. -/
theorem repeatedStrictly_eq {run : EStateM Undefined Scene (List Action)}
    {run' : Execution (List Action)} (h : run = allowing run') (n : Nat) :
    repeatedStrictly run n = allowing (repeated n run') := by
  induction n with
  | zero => rfl
  | succ n ih =>
    rw [repeatedStrictly, repeated_succ, ih, h]
    simp only [allowing_bind, allowing_pure]

end Execution

open Execution

mutual

/-- So does an instruction. -/
theorem Instruction.execStrictly_eq : (i : Instruction) → i.execStrictly = allowing i.exec
  | .setSpeed value => by
    rw [Instruction.execStrictly, Instruction.exec, evaluateStrictly_eq, allowing_bind]
    refine bind_congr fun v => ?_
    cases v <;> rfl
  | .setDirection value => by
    rw [Instruction.execStrictly, Instruction.exec, evaluateStrictly_eq, allowing_bind]
    refine bind_congr fun v => ?_
    cases v <;> rfl
  | .bounce => rfl
  | .stop => rfl
  | .setVariable name value => by
    rw [Instruction.execStrictly, Instruction.exec, evaluateStrictly_eq, allowing_bind]
  | .ifThen condition thenBlock => by
    rw [Instruction.execStrictly, Instruction.exec, evaluateStrictly_eq, allowing_bind]
    refine bind_congr fun v => ?_
    split
    · exact Instruction.execAllStrictly_eq thenBlock
    · rfl
  | .ifElse condition thenBlock elseBlock => by
    rw [Instruction.execStrictly, Instruction.exec, evaluateStrictly_eq, allowing_bind]
    refine bind_congr fun v => ?_
    split
    · exact Instruction.execAllStrictly_eq thenBlock
    · exact Instruction.execAllStrictly_eq elseBlock
  | .loop count body => by
    rw [Instruction.execStrictly, Instruction.exec, evaluateStrictly_eq, allowing_bind]
    refine bind_congr fun v => ?_
    cases v with
    | number n =>
      simp only [n.iterationsStrictly_eq, demand_ok, pure_bind]
      exact repeatedStrictly_eq (Instruction.execAllStrictly_eq body) _
    | _ => rfl
  | .playSample index => by
    rw [Instruction.execStrictly, Instruction.exec, evaluateStrictly_eq, allowing_bind]
    refine bind_congr fun v => ?_
    cases v with
    | number n =>
      simp only [n.indexStrictly?_eq, demand_ok, pure_bind]
      cases n.index? <;> rfl
    | _ => rfl
  | .spawnBall x y speed direction => by
    rw [Instruction.execStrictly, Instruction.exec]
    simp only [evaluateStrictly_eq, allowing_bind]
    refine bind_congr fun vx => bind_congr fun vy => bind_congr fun vs => bind_congr fun vd => ?_
    cases vx with
    | number nx =>
      cases vy with
      | number ny =>
        cases vs with
        | number ns => cases vd <;> rfl
        | _ => rfl
      | _ => rfl
    | _ => rfl
  | .print value => by
    rw [Instruction.execStrictly, Instruction.exec, evaluateStrictly_eq, allowing_bind]
    refine bind_congr fun v => ?_
    rw [v.textStrictly_eq, demand_ok, pure_bind]
    rfl

/-- And so does a block. -/
theorem Instruction.execAllStrictly_eq : (block : List Instruction) →
    Instruction.execAllStrictly block = allowing (Instruction.execAll block)
  | [] => rfl
  | i :: rest => by
    simp only [Instruction.execAllStrictly, Instruction.execAll, allowing_bind, allowing_pure,
      Instruction.execStrictly_eq i, Instruction.execAllStrictly_eq rest]

end

/-! ## When the hit count is out of range -/

/-- The failure of a result, if it is one. -/
def failure? {ε : Type} : EStateM.Result ε σ α → Option ε
  | .ok _ _ => none
  | .error e _ => some e

/-- The ball has hit more often than any number tells. -/
def Context.HitsOverflow (c : Context) : Prop := 2 ^ 1024 - 2 ^ 970 ≤ c.ballHits.natAbs

instance (c : Context) : Decidable c.HitsOverflow := inferInstanceAs (Decidable (_ ≤ _))

/-- A computation that fails like this from whatever state, or never. -/
def FailsWith {ε : Type} (expected : Option ε) (e : EStateM ε σ α) : Prop :=
  ∀ s, failure? (e s) = expected

namespace FailsWith

variable {ε : Type} {p q : Option ε}

theorem pure (a : α) : FailsWith none (Pure.pure a : EStateM ε σ α) := fun _ => rfl

/-- The first failure is the one that counts. -/
theorem bind {e : EStateM ε σ α} {f : α → EStateM ε σ β} (he : FailsWith p e)
    (hf : ∀ a, FailsWith q (f a)) : FailsWith (p.or q) (e >>= f) := by
  intro s
  have first := he s
  simp only [Bind.bind, EStateM.bind]
  cases run : e s with
  | ok a t =>
    rw [run] at first
    rw [← first]
    exact hf a t
  | error err t =>
    rw [run] at first
    rw [← first]
    rfl

end FailsWith

theorem BinaryOp.failsWith_compute (op : BinaryOp) (a b : Value) :
    FailsWith none (op.compute a b) := by
  intro g
  rw [compute]
  cases op.onValues a b <;> rfl

/-- The failure of an expression: that of the hit count, if the expression reads it anywhere. -/
def Expression.overflow? (c : Context) (e : Expression) : Option HitOverflow :=
  if c.HitsOverflow ∧ .ball .hitCount ∈ e.reads then some ⟨c.ballHits⟩ else none

namespace Expression

variable {c : Context}

/-- An expression that does not read the hit count does not fail. -/
theorem overflow?_of_not_mem {e : Expression} (h : .ball .hitCount ∉ e.reads) :
    e.overflow? c = none := if_neg fun both => h both.2

/-- Both operands count, whatever the operation is. -/
theorem overflow?_binary (op : BinaryOp) (left right : Expression) :
    (binary op left right).overflow? c = (left.overflow? c).or (right.overflow? c) := by
  simp only [overflow?, reads, List.mem_append]
  by_cases overflow : c.HitsOverflow
  · by_cases inLeft : .ball .hitCount ∈ left.reads
    · simp [overflow, inLeft]
    · simp [overflow, inLeft]
  · simp [overflow]

/-- The hit count fails iff it is out of range. -/
theorem failsWith_hitCount :
    FailsWith ((ball .hitCount).overflow? c) ((ball .hitCount).eval c) := by
  intro g
  unfold eval BallProperty.read overflow?
  by_cases overflow : c.HitsOverflow
  · rw [if_pos ⟨overflow, List.mem_singleton_self _⟩,
      (Binary64.ofInt?_eq_none_iff c.ballHits).2 overflow]
    rfl
  · obtain ⟨n, fits⟩ := Option.ne_none_iff_exists'.1
      (mt (Binary64.ofInt?_eq_none_iff c.ballHits).1 overflow)
    rw [if_neg fun both => overflow both.1, fits]
    rfl

/-- Evaluation fails iff the hit count is read anywhere in the expression and out of range. -/
theorem failsWith_eval (c : Context) (e : Expression) : FailsWith (e.overflow? c) (e.eval c) := by
  induction e with
  | literal v =>
    rw [overflow?_of_not_mem (by simp [reads])]
    exact .pure v
  | var name =>
    intro g
    rw [overflow?_of_not_mem (by simp [reads]), eval]
    cases c.variables[name]? <;> rfl
  | binary op left right ihLeft ihRight =>
    have both := ihLeft.bind fun a => ihRight.bind fun b => op.failsWith_compute a b
    rw [Option.or_none, ← overflow?_binary op] at both
    exact both
  | ball p =>
    cases p with
    | hitCount => exact failsWith_hitCount
    | _ =>
      rw [overflow?_of_not_mem (by simp [reads])]
      exact .pure _
  | random min max =>
    intro g
    rw [overflow?_of_not_mem (by simp [reads]), eval]
    split <;> rfl

end Expression

/-- A run that leaves the hit count as it is and fails for no other reason, and only if `allowed`
    holds. -/
def Execution.BlamesHits (hits : Int) (allowed : Prop) (e : Execution α) : Prop :=
  ∀ s, s.context.ballHits = hits → (e.final s).context.ballHits = hits ∧
    (failure? (e s) = none ∨ allowed ∧ failure? (e s) = some ⟨hits⟩)

/-- A run in two parts fails for the reason of one of them, and the first part leaves the hit count
    to the second. -/
theorem Execution.BlamesHits.bind {hits : Int} {allowed : Prop} {e : Execution α}
    {f : α → Execution β} (he : e.BlamesHits hits allowed)
    (hf : ∀ a, (f a).BlamesHits hits allowed) : BlamesHits hits allowed (e >>= f) := by
  intro s same
  have first := he s same
  simp only [final, Bind.bind, EStateM.bind] at first ⊢
  cases run : e s with
  | ok a t =>
    rw [run] at first
    exact hf a t first.1
  | error err t =>
    rw [run] at first
    exact first

/-- Blocks fail for no other reason than expressions do. -/
theorem Execution.closed_blamesHits (hits : Int) (uses : List Use) (names : List String) :
    Closed uses names fun e =>
      e.BlamesHits hits (2 ^ 1024 - 2 ^ 970 ≤ hits.natAbs ∧ .ball .hitCount ∈ uses) where
  pure a s same := ⟨same, .inl rfl⟩
  bind := .bind
  evaluate {e} reads s same := by
    -- What an evaluation may blame is in its expression, and so among the uses of the block.
    have value := e.failsWith_eval s.context s.engine
    simp only [final, Execution.evaluate]
    cases run : e.eval s.context s.engine with
    | ok v g => exact ⟨same, .inl rfl⟩
    | error err g =>
      rw [run] at value
      obtain ⟨⟨overflow, read⟩, found⟩ := Option.ite_none_right_eq_some.1 value.symm
      obtain rfl := Option.some.inj found
      refine ⟨same, .inr ⟨⟨?_, reads read⟩, ?_⟩⟩
      · rwa [← same]
      · rw [← same]
        rfl
  skip m s same := ⟨same, .inl rfl⟩
  assign v _ s same := ⟨same, .inl rfl⟩

/-- What goes wrong in a context, and when: nothing but the conversion of its hit count. -/
structure Context.FailsOnHitsOnly (c : Context) (g : Engine) : Prop where
  /-- An expression has a value, unless it reads the hit count and no number holds that. -/
  value : ∀ e : Expression, failure? (e.eval c g) =
    if c.HitsOverflow ∧ .ball .hitCount ∈ e.reads then some ⟨c.ballHits⟩ else none
  /-- A block ends well, unless it reads the hit count and no number holds that. -/
  run : ∀ block, failure? (Instruction.execAll block ⟨c, g⟩) = none ∨
    (c.HitsOverflow ∧ .ball .hitCount ∈ Instruction.readsAll block) ∧
      failure? (Instruction.execAll block ⟨c, g⟩) = some ⟨c.ballHits⟩
  /-- No other operation is used outside its domain to find a value. -/
  evaluates : ∀ e : Expression, e.evalStrictly c g = allowing (e.eval c) g
  /-- Nor in a run. -/
  executes : ∀ block,
    Instruction.execAllStrictly block ⟨c, g⟩ = allowing (Instruction.execAll block) ⟨c, g⟩

/-- The only failure of the interpreter is a hit count that no number holds. It comes up iff an
    expression reads the hit count anywhere, and in no run that does not. -/
theorem failsOnHitsOnly (c : Context) (g : Engine) : c.FailsOnHitsOnly g where
  value e := e.failsWith_eval c g
  run block :=
    (Instruction.closed_execAll (Execution.closed_blamesHits c.ballHits _ _) block
      (List.Subset.refl _) (List.Subset.refl _) ⟨c, g⟩ rfl).2
  evaluates e := by rw [e.evalStrictly_eq]
  executes block := by rw [Instruction.execAllStrictly_eq]

end Carom
