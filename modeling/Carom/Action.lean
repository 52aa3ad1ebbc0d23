import Carom.Program

/-!
# Actions

What a run asks the simulation to do, in order. A run moves no ball itself.
-/

namespace Carom

/-- An action for the simulation to apply. -/
inductive Action where
  | setSpeed (speed : Binary64)
  | setDirection (direction : Direction)
  | bounce
  | stop
  /-- Play the sample of that index. -/
  | playSample (index : Int)
  | spawnBall (x y speed : Binary64) (direction : Direction)
  | print (text : String)
  /-- Run a program next. -/
  | execute (program : Program)
  /-- Do nothing. -/
  | none
  deriving BEq

end Carom
