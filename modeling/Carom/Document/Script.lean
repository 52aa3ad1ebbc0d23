import Carom.Document.Scalar

/-!
# Documents of scripts

How values, expressions, instructions and programs are read from documents and
written to them. A variant is an object whose member `kind` says which variant it
is; its members come in a fixed order, in which their faults are listed. Members
that are not expected are ignored.
-/

namespace Carom

open Document Checked

/-! ## Values -/

/-- A direction as a document. -/
def Direction.document (d : Direction) : Document := .text d.word

/-- A direction from its word. -/
def Document.direction (d : Document) : Checked Direction := d.word Direction.ofWord?

/-- A value as a document. -/
def Value.document : Value → Document
  | number n => variant Kind.number.name [("value", ofNumber n)]
  | direction d => variant Kind.direction.name [("value", d.document)]
  | boolean b => variant Kind.boolean.name [("value", .boolean b)]
  | string s => variant Kind.string.name [("value", .text s)]

/-- A value from a document. -/
def Document.value (d : Document) : Checked Value :=
  d.kind.andThen fun
    | "number" => ofKind "number" <| (d.field "value" fun v _ => v.number).map .number
    | "direction" => ofKind "direction" <| (d.field "value" fun v _ => v.direction).map .direction
    | "boolean" => ofKind "boolean" <| (d.field "value" fun v _ => v.truth).map .boolean
    | "string" => ofKind "string" <| (d.field "value" fun v _ => v.string).map .string
    | _ => flawed .unknownKind

/-- A number that is written as a value, where no other kind of value is expected; it
    need not say its kind. -/
def Document.numberValue (d : Document) : Checked Binary64 :=
  d.record <|
    ((d.fieldOr "kind" () fun v _ => match v with
      | .text "number" => valid ()
      | _ => flawed .otherKind).both (d.field "value" fun v _ => v.number)).map Prod.snd

/-! ## Expressions -/

/-- An expression as a document. -/
def Expression.document : Expression → Document
  | literal v => variant "literal" [("value", v.document)]
  | var name => variant "variable_ref" [("name", .text name)]
  | binary op left right =>
    variant "binary"
      [("op", .text op.name), ("left", left.document), ("right", right.document)]
  | ball property => variant "ball_property" [("prop", .text property.name)]
  | random min max => variant "random" [("min", ofNumber min), ("max", ofNumber max)]

/-- An expression from a document. -/
def Document.expression (d : Document) : Checked Expression :=
  d.kind.andThen fun
    | "literal" => ofKind "literal" <| (d.field "value" fun v _ => v.value).map .literal
    | "variable_ref" => ofKind "variable_ref" <| (d.field "name" fun v _ => v.string).map .var
    | "binary" =>
      let op := d.field "op" fun v _ => v.word BinaryOp.ofName?
      let left := d.field "left" fun v _ => v.expression
      let right := d.field "right" fun v _ => v.expression
      ofKind "binary" <| (op.both (left.both right)).map fun p => .binary p.1 p.2.1 p.2.2
    | "ball_property" =>
      ofKind "ball_property" <|
        (d.field "prop" fun v _ => v.word BallProperty.ofName?).map .ball
    | "random" =>
      let min := d.field "min" fun v _ => v.number
      let max := d.field "max" fun v _ => v.number
      ofKind "random" <| (min.both max).map fun p => .random p.1 p.2
    | _ => flawed .unknownKind
termination_by sizeOf d

/-! ## Instructions -/

mutual

/-- An instruction as a document. -/
def Instruction.document : Instruction → Document
  | .setSpeed e => variant "set_speed" [("value", e.document)]
  | .setDirection e => variant "set_direction" [("value", e.document)]
  | .bounce => variant "bounce" []
  | .stop => variant "stop" []
  | .setVariable name e => variant "set_variable" [("name", .text name), ("value", e.document)]
  | .ifThen e thenBlock =>
    variant "if"
      [("condition", e.document), ("then_block", .list (Instruction.documents thenBlock)),
        ("else_block", .null)]
  | .ifElse e thenBlock elseBlock =>
    variant "if"
      [("condition", e.document), ("then_block", .list (Instruction.documents thenBlock)),
        ("else_block", .list (Instruction.documents elseBlock))]
  | .loop e body =>
    variant "loop" [("count", e.document), ("body", .list (Instruction.documents body))]
  | .playSample e => variant "play_sample" [("index", e.document)]
  | .spawnBall x y speed direction =>
    variant "spawn_ball"
      [("x", x.document), ("y", y.document), ("speed", speed.document),
        ("direction", direction.document)]
  | .print e => variant "print" [("value", e.document)]

/-- The instructions of a block as documents. -/
def Instruction.documents : List Instruction → List Document
  | [] => []
  | i :: rest => i.document :: Instruction.documents rest

end

/-- An instruction from a document. -/
def Document.instruction (d : Document) : Checked Instruction :=
  d.kind.andThen fun
    | "set_speed" => ofKind "set_speed" <| (d.field "value" fun v _ => v.expression).map .setSpeed
    | "set_direction" =>
      ofKind "set_direction" <| (d.field "value" fun v _ => v.expression).map .setDirection
    | "bounce" => valid .bounce
    | "stop" => valid .stop
    | "set_variable" =>
      let name := d.field "name" fun v _ => v.string
      let value := d.field "value" fun v _ => v.expression
      ofKind "set_variable" <| (name.both value).map fun p => .setVariable p.1 p.2
    | "if" =>
      let condition := d.field "condition" fun v _ => v.expression
      let thenBlock := d.field "then_block" fun v _ =>
        v.items .noSequence fun w _ => w.instruction
      let elseBlock := d.fieldOr "else_block" none fun v _ =>
        v.nullable fun w _ => w.items .noSequence fun u _ => u.instruction
      ofKind "if" <| (condition.both (thenBlock.both elseBlock)).map fun p =>
        match p.2.2 with
        | none => .ifThen p.1 p.2.1
        | some block => .ifElse p.1 p.2.1 block
    | "loop" =>
      let count := d.field "count" fun v _ => v.expression
      let body := d.field "body" fun v _ => v.items .noSequence fun w _ => w.instruction
      ofKind "loop" <| (count.both body).map fun p => .loop p.1 p.2
    | "play_sample" =>
      ofKind "play_sample" <| (d.field "index" fun v _ => v.expression).map .playSample
    | "spawn_ball" =>
      let x := d.field "x" fun v _ => v.expression
      let y := d.field "y" fun v _ => v.expression
      let speed := d.field "speed" fun v _ => v.expression
      let direction := d.field "direction" fun v _ => v.expression
      ofKind "spawn_ball" <| (x.both (y.both (speed.both direction))).map fun p =>
        .spawnBall p.1 p.2.1 p.2.2.1 p.2.2.2
    | "print" => ofKind "print" <| (d.field "value" fun v _ => v.expression).map .print
    | _ => flawed .unknownKind
termination_by sizeOf d

/-- The instructions of a block from a document. -/
def Document.block (d : Document) : Checked (List Instruction) :=
  d.items .noSequence fun v _ => v.instruction

/-! ## Programs -/

/-- A program as a document. -/
def Program.document (p : Program) : Document :=
  .object
    [("name", .text p.name), ("instructions", .list (Instruction.documents p.instructions)),
      ("source_text", match p.sourceText with
        | none => .null
        | some s => .text s)]

/-- A program from a document. -/
def Document.program (d : Document) : Checked Program :=
  d.record <|
    let name := d.field "name" fun v _ => v.string
    let instructions := d.fieldOr "instructions" [] fun v _ => v.block
    let sourceText := d.fieldOr "source_text" none fun v _ => v.nullable fun w _ => w.string
    (name.both (instructions.both sourceText)).map fun p => ⟨p.1, p.2.1, p.2.2⟩

end Carom
