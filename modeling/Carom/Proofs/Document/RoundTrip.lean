import Carom.Document.Grid
import Carom.Proofs.Document.Checked
import Carom.Proofs.Document.Scalar

/-!
# Documents that are written and read back

Data is read back from the document that is written for it, as what it was: a value, an
expression, an instruction, a program and a ball always (`value_document` and the lemmas after it),
and an action, an effect, a step and a square iff none of the integers in them has too many digits
(`action_document`, `square_document`). For a large integer is written as a text, and no text of
more than `maxIntegerDigits` digits is read as an integer.

The other way round, a document that is read without a fault is read as the same data after it is
written again, if the integers in the document are short themselves (`Document.Short`): whatever is
read as an integer is then short (`Document.Short.int`), and so is all that is read at a greater
depth.
-/

namespace Carom

open Document Checked

/-! ## Values and expressions -/

/-- A direction is read back from its word. -/
theorem direction_document (d : Direction) : d.document.direction = valid d := by
  rw [Direction.document, Document.direction, Document.word, Direction.ofWord?_word]

/-- A value is read back. -/
theorem value_document (v : Value) : v.document.value = valid v := by
  cases v with
  | number n =>
    have kind : (Value.number n).document.kind = valid "number" := rfl
    have value : (Value.number n).document.field "value" (fun v _ => v.number) = valid n :=
      field_eq_valid rfl (number_ofNumber n)
    simp only [Document.value, kind, andThen, value]
    rfl
  | direction d =>
    have kind : (Value.direction d).document.kind = valid "direction" := rfl
    have value : (Value.direction d).document.field "value" (fun v _ => v.direction) = valid d :=
      field_eq_valid rfl (direction_document d)
    simp only [Document.value, kind, andThen, value]
    rfl
  | boolean b => rfl
  | string s => rfl

/-- An expression is read back, with all that is in it. -/
theorem expression_document (e : Expression) : e.document.expression = valid e := by
  induction e with
  | literal v =>
    have kind : (Expression.literal v).document.kind = valid "literal" := rfl
    have value : (Expression.literal v).document.field "value" (fun v _ => v.value) = valid v :=
      field_eq_valid rfl (value_document v)
    rw [Document.expression, kind]
    simp only [andThen, value]
    rfl
  | var name =>
    have kind : (Expression.var name).document.kind = valid "variable_ref" := rfl
    have value : (Expression.var name).document.field "name" (fun v _ => v.string) = valid name :=
      field_eq_valid rfl rfl
    rw [Document.expression, kind]
    simp only [andThen, value]
    rfl
  | binary op left right ihl ihr =>
    have kind : (Expression.binary op left right).document.kind = valid "binary" := rfl
    have op' : (Expression.binary op left right).document.field "op"
        (fun v _ => v.word BinaryOp.ofName?) = valid op :=
      field_eq_valid rfl (by rw [word, BinaryOp.ofName?_name])
    have left' : (Expression.binary op left right).document.field "left"
        (fun v _ => v.expression) = valid left := field_eq_valid rfl ihl
    have right' : (Expression.binary op left right).document.field "right"
        (fun v _ => v.expression) = valid right := field_eq_valid rfl ihr
    rw [Document.expression, kind]
    simp only [andThen, op', left', right']
    rfl
  | ball p =>
    have kind : (Expression.ball p).document.kind = valid "ball_property" := rfl
    have property : (Expression.ball p).document.field "prop"
        (fun v _ => v.word BallProperty.ofName?) = valid p :=
      field_eq_valid rfl (by rw [word, BallProperty.ofName?_name])
    rw [Document.expression, kind]
    simp only [andThen, property]
    rfl
  | random min max =>
    have kind : (Expression.random min max).document.kind = valid "random" := rfl
    have min' : (Expression.random min max).document.field "min" (fun v _ => v.number) =
        valid min := field_eq_valid rfl (number_ofNumber min)
    have max' : (Expression.random min max).document.field "max" (fun v _ => v.number) =
        valid max := field_eq_valid rfl (number_ofNumber max)
    rw [Document.expression, kind]
    simp only [andThen, min', max']
    rfl

/-- A member that holds an expression. -/
theorem field_expression {d : Document} {key : String} {e : Expression}
    (found : d.get? key = some e.document) :
    d.field key (fun v _ => v.expression) = valid e :=
  field_eq_valid found (expression_document e)

/-! ## Instructions -/

/-- A member that holds a block whose instructions are read back. -/
theorem field_block {d : Document} {key : String} {block : List Instruction}
    (found : d.get? key = some (.list (Instruction.documents block)))
    (each : (each 0 (Instruction.documents block) fun v _ => v.instruction) = valid block) :
    d.field key (fun v _ => v.items .noSequence fun w _ => w.instruction) = valid block :=
  field_eq_valid found each

/-- The same for a block that may be missing. -/
theorem fieldOr_block {d : Document} {key : String} {block : List Instruction}
    (found : d.get? key = some (.list (Instruction.documents block)))
    (each : (each 0 (Instruction.documents block) fun v _ => v.instruction) = valid block) :
    d.fieldOr key none (fun v _ => v.nullable fun w _ =>
      w.items .noSequence fun u _ => u.instruction) = valid (some block) :=
  fieldOr_eq_valid found (map_eq_valid_iff.2 ⟨block, each, rfl⟩)

mutual

/-- An instruction is read back, with its blocks. -/
theorem instruction_document : (i : Instruction) → i.document.instruction = valid i
  | .setSpeed e => by
    have kind : (Instruction.setSpeed e).document.kind = valid "set_speed" := rfl
    have value := @field_expression (Instruction.setSpeed e).document "value" e rfl
    rw [Document.instruction, kind]
    simp only [andThen, value]
    rfl
  | .setDirection e => by
    have kind : (Instruction.setDirection e).document.kind = valid "set_direction" := rfl
    have value := @field_expression (Instruction.setDirection e).document "value" e rfl
    rw [Document.instruction, kind]
    simp only [andThen, value]
    rfl
  | .bounce => by
    have kind : Instruction.bounce.document.kind = valid "bounce" := rfl
    rw [Document.instruction, kind]
    rfl
  | .stop => by
    have kind : Instruction.stop.document.kind = valid "stop" := rfl
    rw [Document.instruction, kind]
    rfl
  | .setVariable name e => by
    have kind : (Instruction.setVariable name e).document.kind = valid "set_variable" := rfl
    have name' : (Instruction.setVariable name e).document.field "name" (fun v _ => v.string) =
        valid name := field_eq_valid rfl rfl
    have value := @field_expression (Instruction.setVariable name e).document "value" e rfl
    rw [Document.instruction, kind]
    simp only [andThen, name', value]
    rfl
  | .ifThen e thenBlock => by
    have kind : (Instruction.ifThen e thenBlock).document.kind = valid "if" := rfl
    have condition := @field_expression (Instruction.ifThen e thenBlock).document "condition" e rfl
    have thenBlock' : (Instruction.ifThen e thenBlock).document.field "then_block"
        (fun v _ => v.items .noSequence fun w _ => w.instruction) = valid thenBlock :=
      field_block rfl (each_documents thenBlock 0)
    have elseBlock' : (Instruction.ifThen e thenBlock).document.fieldOr "else_block" none
        (fun v _ => v.nullable fun w _ => w.items .noSequence fun u _ => u.instruction) =
          valid none := fieldOr_eq_valid rfl rfl
    rw [Document.instruction, kind]
    simp only [andThen, condition, thenBlock', elseBlock']
    rfl
  | .ifElse e thenBlock elseBlock => by
    have kind : (Instruction.ifElse e thenBlock elseBlock).document.kind = valid "if" := rfl
    have condition :=
      @field_expression (Instruction.ifElse e thenBlock elseBlock).document "condition" e rfl
    have thenBlock' : (Instruction.ifElse e thenBlock elseBlock).document.field "then_block"
        (fun v _ => v.items .noSequence fun w _ => w.instruction) = valid thenBlock :=
      field_block rfl (each_documents thenBlock 0)
    have elseBlock' : (Instruction.ifElse e thenBlock elseBlock).document.fieldOr "else_block" none
        (fun v _ => v.nullable fun w _ => w.items .noSequence fun u _ => u.instruction) =
          valid (some elseBlock) :=
      fieldOr_block rfl (each_documents elseBlock 0)
    rw [Document.instruction, kind]
    simp only [andThen, condition, thenBlock', elseBlock']
    rfl
  | .loop e body => by
    have kind : (Instruction.loop e body).document.kind = valid "loop" := rfl
    have count := @field_expression (Instruction.loop e body).document "count" e rfl
    have body' : (Instruction.loop e body).document.field "body"
        (fun v _ => v.items .noSequence fun w _ => w.instruction) = valid body :=
      field_block rfl (each_documents body 0)
    rw [Document.instruction, kind]
    simp only [andThen, count, body']
    rfl
  | .playSample e => by
    have kind : (Instruction.playSample e).document.kind = valid "play_sample" := rfl
    have index := @field_expression (Instruction.playSample e).document "index" e rfl
    rw [Document.instruction, kind]
    simp only [andThen, index]
    rfl
  | .spawnBall x y speed direction => by
    have kind : (Instruction.spawnBall x y speed direction).document.kind =
        valid "spawn_ball" := rfl
    have x' := @field_expression (Instruction.spawnBall x y speed direction).document "x" x rfl
    have y' := @field_expression (Instruction.spawnBall x y speed direction).document "y" y rfl
    have speed' :=
      @field_expression (Instruction.spawnBall x y speed direction).document "speed" speed rfl
    have direction' := @field_expression (Instruction.spawnBall x y speed direction).document
      "direction" direction rfl
    rw [Document.instruction, kind]
    simp only [andThen, x', y', speed', direction']
    rfl
  | .print e => by
    have kind : (Instruction.print e).document.kind = valid "print" := rfl
    have value := @field_expression (Instruction.print e).document "value" e rfl
    rw [Document.instruction, kind]
    simp only [andThen, value]
    rfl

/-- A block is read back. -/
theorem each_documents : (block : List Instruction) → (n : Nat) →
    (each n (Instruction.documents block) fun v _ => v.instruction) = valid block
  | [], _ => rfl
  | i :: block, n =>
    each_cons_eq_valid_iff.2
      ⟨i, block, rfl, instruction_document i, each_documents block (n + 1)⟩

end

/-! ## Programs and balls -/

/-- A program is read back. -/
theorem program_document (p : Program) : p.document.program = valid p := by
  obtain ⟨name, instructions, sourceText⟩ := p
  let p : Program := ⟨name, instructions, sourceText⟩
  have name' : p.document.field "name" (fun v _ => v.string) = valid name := field_eq_valid rfl rfl
  have block : (Document.list (Instruction.documents instructions)).block = valid instructions :=
    each_documents instructions 0
  have instructions' : p.document.fieldOr "instructions" [] (fun v _ => v.block) =
      valid instructions := fieldOr_eq_valid rfl block
  have sourceText' : p.document.fieldOr "source_text" none
      (fun v _ => v.nullable fun w _ => w.string) = valid sourceText := by
    cases sourceText with
    | none => exact fieldOr_eq_valid rfl rfl
    | some text => exact fieldOr_eq_valid rfl rfl
  change p.document.program = valid p
  rw [Document.program, name', instructions', sourceText']
  rfl

/-- A ball is read back. -/
theorem ball_document (b : Ball) : b.document.ball = valid b := by
  have identity : b.document.field "identity" (fun v _ => v.string) = valid b.identity :=
    field_eq_valid rfl rfl
  have x : b.document.field "x" (fun v _ => v.number) = valid b.x :=
    field_eq_valid rfl (number_ofNumber b.x)
  have y : b.document.field "y" (fun v _ => v.number) = valid b.y :=
    field_eq_valid rfl (number_ofNumber b.y)
  have speed : b.document.fieldOr "speed" Ball.usualSpeed (fun v _ => v.nonnegative) =
      valid ⟨b.speed, b.speed_nonneg⟩ :=
    fieldOr_eq_valid rfl (nonnegative_ofNumber b.speed_nonneg)
  have direction : b.document.fieldOr "direction" .right (fun v _ => v.direction) =
      valid b.direction := fieldOr_eq_valid rfl (direction_document b.direction)
  have color : b.document.fieldOr "color" "white" (fun v _ => v.string) = valid b.color :=
    fieldOr_eq_valid rfl rfl
  rw [Document.ball, identity, x, y, speed, direction, color]
  rfl

/-! ## Integers -/

/-- A member that holds an integer. -/
theorem field_int {d : Document} {key : String} {z w : Int} (found : d.get? key = some (ofInt z)) :
    d.field key (fun v _ => v.int) = valid w ↔ IsShort z ∧ w = z := by
  rw [field_of_get? found, within_eq_valid_iff, int_ofInt_eq_valid_iff]

/-- A member that holds an integer that is not too small. -/
theorem field_natural {d : Document} {key : String} {n least : Nat} (le : least ≤ n)
    (found : d.get? key = some (ofInt n)) {m : { n : Nat // least ≤ n }} :
    d.field key (fun v _ => v.natural least) = valid m ↔ IsShort n ∧ m = ⟨n, le⟩ := by
  rw [field_of_get? found, within_eq_valid_iff, natural_ofInt_eq_valid_iff le]

/-! ## Actions -/

/-- The integers in an action. -/
def Action.integers : Action → List Int
  | .playSample i => [i]
  | _ => []

/-- An action is read back iff its integers are not too long. -/
theorem action_document (a : Action) :
    a.document.action = valid a ↔ ∀ z ∈ a.integers, IsShort z := by
  cases a with
  | setSpeed speed =>
    have kind : (Action.setSpeed speed).document.kind = valid "set_speed" := rfl
    have speed' : (Action.setSpeed speed).document.field "speed" (fun v _ => v.number) =
        valid speed := field_eq_valid rfl (number_ofNumber speed)
    refine iff_of_true ?_ (List.forall_mem_nil _)
    rw [Document.action, kind]
    simp only [andThen, speed']
    rfl
  | setDirection d =>
    have kind : (Action.setDirection d).document.kind = valid "set_direction" := rfl
    have direction : (Action.setDirection d).document.field "direction" (fun v _ => v.direction) =
        valid d := field_eq_valid rfl (direction_document d)
    refine iff_of_true ?_ (List.forall_mem_nil _)
    rw [Document.action, kind]
    simp only [andThen, direction]
    rfl
  | bounce => exact iff_of_true rfl (List.forall_mem_nil _)
  | stop => exact iff_of_true rfl (List.forall_mem_nil _)
  | playSample i =>
    have kind : (Action.playSample i).document.kind = valid "play_sample" := rfl
    rw [Document.action, kind]
    simp only [andThen, ofKind, within_eq_valid_iff, map_eq_valid_iff,
      @field_int (Action.playSample i).document "index" i _ rfl]
    simp [Action.integers]
  | spawnBall x y speed d =>
    have kind : (Action.spawnBall x y speed d).document.kind = valid "spawn_ball" := rfl
    have x' : (Action.spawnBall x y speed d).document.field "x" (fun v _ => v.number) =
        valid x := field_eq_valid rfl (number_ofNumber x)
    have y' : (Action.spawnBall x y speed d).document.field "y" (fun v _ => v.number) =
        valid y := field_eq_valid rfl (number_ofNumber y)
    have speed' : (Action.spawnBall x y speed d).document.field "speed" (fun v _ => v.number) =
        valid speed := field_eq_valid rfl (number_ofNumber speed)
    have direction : (Action.spawnBall x y speed d).document.field "direction"
        (fun v _ => v.direction) = valid d := field_eq_valid rfl (direction_document d)
    refine iff_of_true ?_ (List.forall_mem_nil _)
    rw [Document.action, kind]
    simp only [andThen, x', y', speed', direction]
    rfl
  | print s => exact iff_of_true rfl (List.forall_mem_nil _)
  | execute p =>
    have kind : (Action.execute p).document.kind = valid "execute_program" := rfl
    have program : (Action.execute p).document.field "program" (fun v _ => v.program) =
        valid p := field_eq_valid rfl (program_document p)
    refine iff_of_true ?_ (List.forall_mem_nil _)
    rw [Document.action, kind]
    simp only [andThen, program]
    rfl
  | none => exact iff_of_true rfl (List.forall_mem_nil _)

/-! ## Squares -/

/-- The integers in an effect. -/
def Effect.integers : Effect → List Int
  | .playSample i => [i]
  | .execute i => [i]
  | _ => []

/-- So is an effect. -/
theorem effect_document (e : Effect) :
    e.document.effect = valid e ↔ ∀ z ∈ e.integers, IsShort z := by
  cases e with
  | bounce => exact iff_of_true rfl (List.forall_mem_nil _)
  | stop => exact iff_of_true rfl (List.forall_mem_nil _)
  | multiplySpeed factor =>
    have kind : (Effect.multiplySpeed factor).document.kind = valid "speed_multiply" := rfl
    have factor' : (Effect.multiplySpeed factor).document.field "factor" (fun v _ => v.number) =
        valid factor := field_eq_valid rfl (number_ofNumber factor)
    refine iff_of_true ?_ (List.forall_mem_nil _)
    rw [Document.effect, kind]
    simp only [andThen, factor']
    rfl
  | changeDirection d =>
    have kind : (Effect.changeDirection d).document.kind = valid "change_direction" := rfl
    have direction : (Effect.changeDirection d).document.field "direction"
        (fun v _ => v.direction) = valid d := field_eq_valid rfl (direction_document d)
    refine iff_of_true ?_ (List.forall_mem_nil _)
    rw [Document.effect, kind]
    simp only [andThen, direction]
    rfl
  | playSample i =>
    have kind : (Effect.playSample i).document.kind = valid "play_sample" := rfl
    rw [Document.effect, kind]
    simp only [andThen, ofKind, within_eq_valid_iff, map_eq_valid_iff,
      @field_natural (Effect.playSample i).document "index" i 0 (Nat.zero_le i) rfl]
    simp [Effect.integers]
  | execute i =>
    have kind : (Effect.execute i).document.kind = valid "execute_program" := rfl
    rw [Document.effect, kind]
    simp only [andThen, ofKind, within_eq_valid_iff, map_eq_valid_iff,
      @field_natural (Effect.execute i).document "program_index" i 0 (Nat.zero_le i) rfl]
    simp [Effect.integers]

/-- The integers in a step. -/
def Step.integers (s : Step) : List Int := s.trigger :: s.effect.integers

/-- So is a step. -/
theorem step_document (s : Step) : s.document.step = valid s ↔ ∀ z ∈ s.integers, IsShort z := by
  -- The trigger is an integer in any case, and the effect may add one.
  have trigger (m : { n : Nat // 1 ≤ n }) := @field_natural s.document "trigger_hits" s.trigger 1
    s.trigger_pos rfl m
  have effect {e : Effect} : s.document.field "effect" (fun v _ => v.effect) = valid e ↔
      s.effect.document.effect = valid e := by
    rw [field_of_get? (rfl : s.document.get? "effect" = some s.effect.document),
      within_eq_valid_iff]
  have isObject : s.document.isObject = true := rfl
  rw [Document.step, record, if_pos isObject]
  simp only [map_eq_valid_iff, both_eq_valid_iff, trigger, effect, Step.integers,
    List.forall_mem_cons, ← effect_document]
  constructor
  · rintro ⟨p, ⟨⟨short, -⟩, effect⟩, rfl⟩
    exact ⟨short, effect⟩
  · rintro ⟨short, effect⟩
    exact ⟨(⟨s.trigger, s.trigger_pos⟩, s.effect), ⟨⟨short, rfl⟩, effect⟩, rfl⟩

/-- The integers in a square. -/
def Square.integers (s : Square) : List Int :=
  s.active.toList.map Int.ofNat ++ s.steps.flatMap Step.integers

/-- A square is checked with what it holds. -/
theorem checked_eq_valid_iff {programs : List Program} {active : Option Int} {steps : List Step}
    {s : Square} : Square.checked programs active steps = valid s ↔
      s.programs = programs ∧ s.active.map Int.ofNat = active ∧ s.steps = steps := by
  let start : Square := ⟨programs, none, steps, fun _ active => by cases active⟩
  rw [← Square.activate_eq_ok_iff (s := start), Square.checked]
  cases start.activate active with
  | ok t => simp
  | error e =>
    constructor
    · intro refused
      cases refused
    · intro refused
      cases refused

theorem ofInt_ne_null (z : Int) : ofInt z ≠ null := by
  rw [ofInt]
  split <;> simp

/-- The member that tells the active program. -/
theorem fieldOr_active (s : Square) {active : Option Int} :
    s.document.fieldOr "active_program" none (fun v _ => v.nullable fun w _ => w.int) =
      valid active ↔ (∀ z ∈ s.active.toList.map Int.ofNat, IsShort z) ∧
        active = s.active.map Int.ofNat := by
  obtain ⟨programs, index, steps, index_lt⟩ := s
  cases index with
  | none =>
    have read : (Square.mk programs none steps index_lt).document.fieldOr "active_program" none
        (fun v _ => v.nullable fun w _ => w.int) = valid none := fieldOr_eq_valid rfl rfl
    rw [read]
    simp [eq_comm]
  | some i =>
    rw [fieldOr_of_get? rfl, within_eq_valid_iff, nullable_of_ne_null (ofInt_ne_null i),
      map_eq_valid_iff]
    simp only [int_ofInt_eq_valid_iff]
    constructor
    · rintro ⟨z, ⟨short, rfl⟩, rfl⟩
      exact ⟨by simpa using short, rfl⟩
    · rintro ⟨short, rfl⟩
      exact ⟨i, ⟨by simpa using short, rfl⟩, rfl⟩

/-- The member that holds the steps. -/
theorem fieldOr_steps (s : Square) :
    s.document.fieldOr "steps" [] (fun v _ => v.items .noList fun w _ => w.step) =
      valid s.steps ↔ ∀ z ∈ s.steps.flatMap Step.integers, IsShort z := by
  have found : s.document.get? "steps" = some (.list (s.steps.map Step.document)) := rfl
  rw [fieldOr_of_get? found, within_eq_valid_iff]
  refine (each_map_eq_valid_iff 0).trans ?_
  simp only [step_document, List.forall_mem_flatMap]

/-- So is a square. -/
theorem square_document (s : Square) :
    s.document.square = valid s ↔ ∀ z ∈ s.integers, IsShort z := by
  have programs : s.document.fieldOr "programs" []
      (fun v _ => v.items .noList fun w _ => w.program) = valid s.programs :=
    fieldOr_eq_valid (v := .list (s.programs.map Program.document)) rfl
      ((each_map_eq_valid_iff 0).2 fun p _ => program_document p)
  have isObject : s.document.isObject = true := rfl
  rw [Document.square, record, if_pos isObject, Square.integers, List.forall_mem_append,
    ← fieldOr_steps]
  simp only [andThen_eq_valid_iff, both_eq_valid_iff, programs, fieldOr_active]
  constructor
  · rintro ⟨p, ⟨-, ⟨short, -⟩, steps⟩, checked⟩
    rw [← (checked_eq_valid_iff.1 checked).2.2] at steps
    exact ⟨short, steps⟩
  · rintro ⟨short, steps⟩
    exact ⟨(s.programs, s.active.map Int.ofNat, s.steps), ⟨rfl, ⟨short, rfl⟩, steps⟩,
      checked_eq_valid_iff.2 ⟨rfl, rfl, rfl⟩⟩

/-! ## Integers that are read -/

/-- An integer that stands in a document as an integer, at any depth. -/
inductive Document.Holds (z : Int) : Document → Prop
  | here : Holds z (.integer z)
  | member {d v : Document} {key : String} : d.get? key = some v → Holds z v → Holds z d
  | item {v : Document} {vs : List Document} : v ∈ vs → Holds z v → Holds z (.list vs)

/-- No integer in a document has too many digits. -/
def Document.Short (d : Document) : Prop := ∀ z, Holds z d → IsShort z

namespace Document.Short

theorem item {v : Document} {vs : List Document} (short : Short (.list vs)) (mem : v ∈ vs) :
    v.Short := fun z holds => short z (.item mem holds)

variable {d v : Document} (short : d.Short)

include short

theorem member {key : String} (found : d.get? key = some v) : v.Short :=
  fun z holds => short z (.member found holds)

theorem int {z : Int} (h : d.int = valid z) : IsShort z := by
  by_cases own : d = .integer z
  · exact short z (own ▸ .here)
  · exact isShort_of_int h own

theorem natural {least : Nat} {m : { n : Nat // least ≤ n }} (h : d.natural least = valid m) :
    IsShort m.val := by
  obtain ⟨z, read, bound⟩ := andThen_eq_valid_iff.1 h
  split at bound
  · rename_i le
    cases bound
    have own : ((z.toNat : Nat) : Int) = z := Int.toNat_of_nonneg (by omega)
    exact own.symm ▸ short.int read
  · cases bound

/-- A member that holds an integer that is not too small. -/
theorem field_natural {key : String} {least : Nat} {m : { n : Nat // least ≤ n }}
    (h : d.field key (fun v _ => v.natural least) = valid m) : IsShort m.val := by
  obtain ⟨v, found, read⟩ := exists_of_field h
  exact (short.member found).natural read

theorem action {a : Action} (h : d.action = valid a) : ∀ z ∈ a.integers, IsShort z := by
  rw [Document.action] at h
  obtain ⟨kind, -, h⟩ := andThen_eq_valid_iff.1 h
  split at h
  case h_5 =>
    obtain ⟨i, read, rfl⟩ := map_eq_valid_iff.1 (within_eq_valid_iff.1 h)
    obtain ⟨v, found, read⟩ := exists_of_field read
    simpa [Action.integers] using (short.member found).int read
  case h_3 | h_4 | h_9 =>
    cases h
    exact List.forall_mem_nil _
  case h_10 => cases h
  -- The other actions have no integers.
  all_goals
    obtain ⟨p, -, rfl⟩ := map_eq_valid_iff.1 (within_eq_valid_iff.1 h)
    exact List.forall_mem_nil _

theorem effect {e : Effect} (h : d.effect = valid e) : ∀ z ∈ e.integers, IsShort z := by
  rw [Document.effect] at h
  obtain ⟨kind, -, h⟩ := andThen_eq_valid_iff.1 h
  split at h
  case h_1 | h_2 =>
    cases h
    exact List.forall_mem_nil _
  case h_3 | h_4 =>
    obtain ⟨p, -, rfl⟩ := map_eq_valid_iff.1 (within_eq_valid_iff.1 h)
    exact List.forall_mem_nil _
  case h_5 | h_6 =>
    obtain ⟨m, read, rfl⟩ := map_eq_valid_iff.1 (within_eq_valid_iff.1 h)
    simpa [Effect.integers] using short.field_natural read
  case h_7 => cases h

theorem step {s : Step} (h : d.step = valid s) : ∀ z ∈ s.integers, IsShort z := by
  rw [Document.step, record] at h
  split at h
  · obtain ⟨p, both, rfl⟩ := map_eq_valid_iff.1 h
    obtain ⟨trigger, effect⟩ := both_eq_valid_iff.1 both
    obtain ⟨v, found, read⟩ := exists_of_field effect
    exact List.forall_mem_cons.2 ⟨short.field_natural trigger, (short.member found).effect read⟩
  · cases h

theorem square {s : Square} (h : d.square = valid s) : ∀ z ∈ s.integers, IsShort z := by
  rw [Document.square, record] at h
  split at h
  · obtain ⟨⟨programs, active, steps⟩, all, checked⟩ := andThen_eq_valid_iff.1 h
    obtain ⟨-, both⟩ := both_eq_valid_iff.1 all
    obtain ⟨readActive, readSteps⟩ := both_eq_valid_iff.1 both
    obtain ⟨-, rfl, rfl⟩ := checked_eq_valid_iff.1 checked
    refine List.forall_mem_append.2 ⟨?_, List.forall_mem_flatMap.2 fun step mem => ?_⟩
    · cases index : s.active with
      | none => exact List.forall_mem_nil _
      | some i =>
        rw [index] at readActive
        -- An active program comes from a member that is there and is not null.
        rcases exists_of_fieldOr readActive with none | ⟨v, found, read⟩
        · cases none
        · by_cases null : v = .null
          · subst null
            cases read
          · rw [nullable_of_ne_null null] at read
            obtain ⟨z, read, eq⟩ := map_eq_valid_iff.1 read
            obtain rfl := Option.some.inj eq
            simpa using (short.member found).int read
    · rcases exists_of_fieldOr readSteps with none | ⟨v, found, read⟩
      · simp_all
      · obtain ⟨vs, rfl, each⟩ := items_eq_valid read
        obtain ⟨w, inside, own⟩ := exists_mem_of_each each mem
        exact ((short.member found).item inside).step own
  · cases h

end Document.Short

/-! ## Reading back -/

/-- What is written is read as what it was, and what is read is the same if it is written and read
    again. -/
structure ReadsBack {α : Type} (write : α → Document) (read : Document → Checked α) : Prop where
  restores : ∀ a, read (write a) = valid a
  settles : ∀ d, ((read d).map write).andThen read = read d

/-- The same for data with integers, none of which may have too many digits: if one has, the data
    is not read back. -/
structure ReadsBackShort {α : Type} (write : α → Document) (read : Document → Checked α)
    (integers : α → List Int) : Prop where
  restores : ∀ a, read (write a) = valid a ↔ ∀ z ∈ integers a, IsShort z
  settles : ∀ d, Short d → ((read d).map write).andThen read = read d

section

variable {α : Type} {write : α → Document} {read : Document → Checked α}

theorem settles_of_restores {d : Document} (h : ∀ a, read d = valid a → read (write a) = valid a) :
    ((read d).map write).andThen read = read d := by
  cases found : read d with
  | valid a => exact h a found
  | faulty faults => rfl

theorem readsBack (h : ∀ a, read (write a) = valid a) : ReadsBack write read :=
  ⟨h, fun _ => settles_of_restores fun a _ => h a⟩

theorem readsBackShort {integers : α → List Int}
    (restores : ∀ a, read (write a) = valid a ↔ ∀ z ∈ integers a, IsShort z)
    (short : ∀ {d}, Short d → ∀ {a}, read d = valid a → ∀ z ∈ integers a, IsShort z) :
    ReadsBackShort write read integers :=
  ⟨restores, fun _ own => settles_of_restores fun a found => (restores a).2 (short own found)⟩

end

/-- Values, expressions, instructions, programs and balls are read from the documents that are
    written for them. So are actions, effects, steps and squares, unless an integer in them has
    more than `maxIntegerDigits` digits. -/
theorem readsBack_documents :
    ReadsBack Value.document Document.value ∧
    ReadsBack Expression.document Document.expression ∧
    ReadsBack Instruction.document Document.instruction ∧
    ReadsBack Program.document Document.program ∧
    ReadsBack Ball.document Document.ball ∧
    ReadsBackShort Action.document Document.action Action.integers ∧
    ReadsBackShort Effect.document Document.effect Effect.integers ∧
    ReadsBackShort Step.document Document.step Step.integers ∧
    ReadsBackShort Square.document Document.square Square.integers :=
  ⟨readsBack value_document, readsBack expression_document, readsBack instruction_document,
    readsBack program_document, readsBack ball_document,
    readsBackShort action_document Short.action, readsBackShort effect_document Short.effect,
    readsBackShort step_document Short.step, readsBackShort square_document Short.square⟩

/-- An index that is too long is refused when it is read back. -/
theorem action_playSample_of_not_isShort {z : Int} (long : ¬IsShort z) :
    (Action.playSample z).document.action =
      faulty [⟨.oversizedInteger, [.field "play_sample", .field "index"]⟩] := by
  have kind : (Action.playSample z).document.kind = valid "play_sample" := rfl
  have found : (Action.playSample z).document.get? "index" = some (ofInt z) := rfl
  have index : (Action.playSample z).document.field "index" (fun v _ => v.int) =
      within (.field "index") (flawed .oversizedInteger) := by
    rw [field_of_get? found, int_ofInt, if_neg long]
  rw [Document.action, kind]
  simp only [andThen, index]
  rfl

/-- The least integer that has too many digits is written, but not read back. -/
theorem action_playSample_ten_pow : (Action.playSample (10 ^ 4300)).document.action =
    faulty [⟨.oversizedInteger, [.field "play_sample", .field "index"]⟩] :=
  action_playSample_of_not_isShort (not_isShort_ten_pow (Nat.le_refl 4300))

end Carom
