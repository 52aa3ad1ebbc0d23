import Carom.Action
import Carom.Ball
import Carom.Document.Script

/-!
# Documents of the grid

How actions, steps, squares and balls are read from documents and written to them.
The bounds that their types demand are checked here: the hit of a step is at least
one, an index and a speed are not negative, and the index of the active program of a
square is in range.
-/

namespace Carom

open Document Checked

/-! ## Actions -/

/-- An action as a document. -/
def Action.document : Action → Document
  | setSpeed speed => variant "set_speed" [("speed", ofNumber speed)]
  | setDirection d => variant "set_direction" [("direction", d.document)]
  | bounce => variant "bounce" []
  | stop => variant "stop" []
  | playSample i => variant "play_sample" [("index", ofInt i)]
  | spawnBall x y speed d =>
    variant "spawn_ball"
      [("x", ofNumber x), ("y", ofNumber y), ("speed", ofNumber speed),
        ("direction", d.document)]
  | print s => variant "print" [("text", .text s)]
  | execute p => variant "execute_program" [("program", p.document)]
  | none => variant "none" []

/-- An action from a document. -/
def Document.action (d : Document) : Checked Action :=
  d.kind.andThen fun
    | "set_speed" => ofKind "set_speed" <| (d.field "speed" fun v _ => v.number).map .setSpeed
    | "set_direction" =>
      ofKind "set_direction" <| (d.field "direction" fun v _ => v.direction).map .setDirection
    | "bounce" => valid .bounce
    | "stop" => valid .stop
    | "play_sample" => ofKind "play_sample" <| (d.field "index" fun v _ => v.int).map .playSample
    | "spawn_ball" =>
      let x := d.field "x" fun v _ => v.number
      let y := d.field "y" fun v _ => v.number
      let speed := d.field "speed" fun v _ => v.number
      let direction := d.field "direction" fun v _ => v.direction
      ofKind "spawn_ball" <| (x.both (y.both (speed.both direction))).map fun p =>
        .spawnBall p.1 p.2.1 p.2.2.1 p.2.2.2
    | "print" => ofKind "print" <| (d.field "text" fun v _ => v.string).map .print
    | "execute_program" =>
      ofKind "execute_program" <| (d.field "program" fun v _ => v.program).map .execute
    | "none" => valid .none
    | _ => flawed .unknownKind

/-! ## Squares -/

/-- An effect as a document. -/
def Effect.document : Effect → Document
  | bounce => variant "bounce" []
  | stop => variant "stop" []
  | multiplySpeed factor => variant "speed_multiply" [("factor", ofNumber factor)]
  | changeDirection d => variant "change_direction" [("direction", d.document)]
  | playSample i => variant "play_sample" [("index", ofInt i)]
  | execute i => variant "execute_program" [("program_index", ofInt i)]

/-- An effect from a document. -/
def Document.effect (d : Document) : Checked Effect :=
  d.kind.andThen fun
    | "bounce" => valid .bounce
    | "stop" => valid .stop
    | "speed_multiply" =>
      ofKind "speed_multiply" <| (d.field "factor" fun v _ => v.number).map .multiplySpeed
    | "change_direction" =>
      ofKind "change_direction" <|
        (d.field "direction" fun v _ => v.direction).map .changeDirection
    | "play_sample" =>
      ofKind "play_sample" <|
        (d.field "index" fun v _ => v.natural 0).map fun i => .playSample i.val
    | "execute_program" =>
      ofKind "execute_program" <|
        (d.field "program_index" fun v _ => v.natural 0).map fun i => .execute i.val
    | _ => flawed .unknownKind

/-- A step as a document. -/
def Step.document (s : Step) : Document :=
  .object [("trigger_hits", ofInt s.trigger), ("effect", s.effect.document)]

/-- A step from a document. -/
def Document.step (d : Document) : Checked Step :=
  d.record <|
    let trigger := d.field "trigger_hits" fun v _ => v.natural 1
    let effect := d.field "effect" fun v _ => v.effect
    (trigger.both effect).map fun p => ⟨p.1.val, p.2, p.1.property⟩

/-- A square as a document. -/
def Square.document (s : Square) : Document :=
  .object
    [("programs", .list (s.programs.map Program.document)),
      ("active_program", match s.active with
        | none => .null
        | some i => ofInt i),
      ("steps", .list (s.steps.map Step.document))]

/-- A square of these programs and steps, if the index of the active program is in
    range. -/
def Square.checked (programs : List Program) (active : Option Int) (steps : List Step) :
    Checked Square :=
  match Square.activate ⟨programs, none, steps, nofun⟩ active with
  | .ok s => valid s
  | .error e => flawed (.activeOutOfRange e)

/-- A square from a document. -/
def Document.square (d : Document) : Checked Square :=
  d.record <|
    let programs := d.fieldOr "programs" [] fun v _ => v.items .noList fun w _ => w.program
    let active := d.fieldOr "active_program" none fun v _ => v.nullable fun w _ => w.int
    let steps := d.fieldOr "steps" [] fun v _ => v.items .noList fun w _ => w.step
    (programs.both (active.both steps)).andThen fun p => Square.checked p.1 p.2.1 p.2.2

/-! ## Balls -/

/-- A ball as a document. -/
def Ball.document (b : Ball) : Document :=
  .object
    [("identity", .text b.identity), ("x", ofNumber b.x), ("y", ofNumber b.y),
      ("speed", ofNumber b.speed), ("direction", b.direction.document),
      ("color", .text b.color)]

/-- The speed of a ball of which the document tells none. -/
def Ball.usualSpeed : { x : Binary64 // Binary64.zero ≤ x } :=
  ⟨Binary64.ofInt 1, by decide +kernel⟩

/-- A ball from a document. -/
def Document.ball (d : Document) : Checked Ball :=
  d.record <|
    let identity := d.field "identity" fun v _ => v.string
    let x := d.field "x" fun v _ => v.number
    let y := d.field "y" fun v _ => v.number
    let speed := d.fieldOr "speed" Ball.usualSpeed fun v _ => v.nonnegative
    let direction := d.fieldOr "direction" .right fun v _ => v.direction
    let color := d.fieldOr "color" "white" fun v _ => v.string
    (identity.both (x.both (y.both (speed.both (direction.both color))))).map fun p =>
      ⟨p.1, p.2.1, p.2.2.1, p.2.2.2.1.val, p.2.2.2.2.1, p.2.2.2.2.2, p.2.2.2.1.property⟩

end Carom
