import Carom.Instruction

/-!
# Programs
-/

namespace Carom

/-- A named behaviour, with the text that it was read from if there is one. -/
structure Program where
  /-- The name under which the program is known. -/
  name : String
  /-- What a run of the program does. -/
  instructions : List Instruction := []
  /-- The text of the program in the editor. -/
  sourceText : Option String := none
  deriving BEq

end Carom
