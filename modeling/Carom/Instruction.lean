import Carom.Expression

/-!
# Instructions

A script is a list of instructions; branches and loops hold lists of their own.
-/

namespace Carom

/-- An instruction of the script language. -/
inductive Instruction where
  /-- Set the speed of the ball. -/
  | setSpeed (value : Expression)
  /-- Set the direction of the ball. -/
  | setDirection (value : Expression)
  /-- Let the ball bounce. -/
  | bounce
  /-- Stop the ball. -/
  | stop
  /-- Give a variable a value. -/
  | setVariable (name : String) (value : Expression)
  /-- Run a block if the condition is true. -/
  | ifThen (condition : Expression) (thenBlock : List Instruction)
  /-- Run one block if the condition is true and another one if it is not. -/
  | ifElse (condition : Expression) (thenBlock elseBlock : List Instruction)
  /-- Run a block as often as the count says, which is evaluated once. -/
  | loop (count : Expression) (body : List Instruction)
  /-- Play a sample. -/
  | playSample (index : Expression)
  /-- Put a new ball on the grid. -/
  | spawnBall (x y speed direction : Expression)
  /-- Show a value. -/
  | print (value : Expression)

namespace Instruction

/-- The name of the kind of an instruction, in documents and in messages. -/
def kind : Instruction → String
  | setSpeed _ => "set_speed"
  | setDirection _ => "set_direction"
  | bounce => "bounce"
  | stop => "stop"
  | setVariable .. => "set_variable"
  | ifThen .. => "if"
  | ifElse .. => "if"
  | loop .. => "loop"
  | playSample _ => "play_sample"
  | spawnBall .. => "spawn_ball"
  | print _ => "print"

mutual

/-- Equality of instructions, with numbers compared as the format compares them. -/
protected def beq : Instruction → Instruction → Bool
  | setSpeed a, setSpeed b => a == b
  | setDirection a, setDirection b => a == b
  | bounce, bounce => true
  | stop, stop => true
  | setVariable m a, setVariable n b => m == n && a == b
  | ifThen a s, ifThen b t => a == b && Instruction.blockBeq s t
  | ifElse a s u, ifElse b t v => a == b && Instruction.blockBeq s t && Instruction.blockBeq u v
  | loop a s, loop b t => a == b && Instruction.blockBeq s t
  | playSample a, playSample b => a == b
  | spawnBall x y s d, spawnBall x' y' s' d' => x == x' && y == y' && s == s' && d == d'
  | print a, print b => a == b
  | _, _ => false

/-- Equality of blocks, instruction by instruction. -/
protected def blockBeq : List Instruction → List Instruction → Bool
  | [], [] => true
  | i :: is, j :: js => Instruction.beq i j && Instruction.blockBeq is js
  | _, _ => false

end

instance : BEq Instruction := ⟨Instruction.beq⟩

end Instruction

end Carom
