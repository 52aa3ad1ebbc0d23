import Carom.Direction
import Carom.Text.Blank
import Carom.Text.Line

/-!
# Lines of scripts and their errors

A script is read line by line. Only the lines that are not blank count, each trimmed
and with its number in the text (`significant`). An error (`SyntaxError`) names the
first line that is wrong and the cause; a text without such lines has an error of
its own.
-/

namespace Carom.Script

open Text

/-- A line of a script that is not blank. -/
structure Line where
  /-- The number of the line in the text, from one. -/
  number : Nat
  /-- The text of the line without the blanks at its ends. -/
  text : List Char
  deriving DecidableEq

/-- The lines that are not blank among those that begin with number `n`. -/
def significantFrom (n : Nat) : List (List Char) → List Line
  | [] => []
  | line :: rest =>
    let text := trim isBlank line
    if text.isEmpty then significantFrom (n + 1) rest
    else ⟨n, text⟩ :: significantFrom (n + 1) rest

/-- The lines of a text that are not blank. -/
def significant (source : List Char) : List Line := significantFrom 1 (lines source)

/-- A keyword and a space in front of a line. -/
def startsWith (word : String) (line : List Char) : Bool := (word.toList ++ [' ']).isPrefixOf line

/-- What follows a keyword and a space. -/
def after (word : String) (line : List Char) : List Char := line.drop (word.length + 1)

namespace Line

/-- Whether a line begins a program. -/
def isHeader (l : Line) : Bool := startsWith "def" l.text

/-- Whether a line ends a program. -/
def isReturn (l : Line) : Bool := l.text == "return".toList

/-- The name in the first line of a program. -/
def name (l : Line) : List Char := trim isBlank (after "def" l.text)

end Line

/-- What is wrong with a line. -/
inductive Cause where
  /-- A program should begin here. -/
  | noHeader
  /-- Not of the form of a condition. -/
  | badCondition
  /-- The count of a condition is no count. -/
  | badCount (token : List Char)
  /-- A setting without a value. -/
  | incompleteSetting
  /-- A change of speed without a value, or with too many. -/
  | badSpeedChange
  /-- A speed with too many values. -/
  | badSpeed
  /-- A direction with too many values. -/
  | badDirection
  /-- A word that names no direction. -/
  | unknownDirection (token : List Char)
  /-- A setting of something that cannot be set. -/
  | unknownProperty (token : List Char)
  /-- A word that is no number. -/
  | badNumber (token : List Char)
  /-- No statement begins like this. -/
  | unknownStatement
  deriving DecidableEq

/-- The text of a cause, for the line that is wrong. -/
def Cause.message (line : List Char) : Cause → String
  | noHeader => "Expected 'def function_name', found: " ++ String.ofList line
  | badCondition =>
    "Invalid if statement: " ++ String.ofList line ++
      ". Expected: if <color> hits <target> <count> times"
  | badCount token => "Invalid hit count '" ++ String.ofList token ++ "'"
  | incompleteSetting => "Incomplete set statement: " ++ String.ofList line
  | badSpeedChange =>
    "Invalid set speed relative statement: " ++ String.ofList line ++
      ". Expected: set speed relative <+/-number>"
  | badSpeed => "Invalid set speed statement: " ++ String.ofList line
  | badDirection => "Invalid set direction statement: " ++ String.ofList line
  | unknownDirection token =>
    "Invalid direction '" ++ String.ofList token ++ "'. Valid directions are: " ++
      ", ".intercalate (Direction.all.map Direction.word)
  | unknownProperty token => "Unknown property '" ++ String.ofList token ++ "' in set statement"
  | badNumber token => "Invalid number '" ++ String.ofList token ++ "'"
  | unknownStatement => "Failed to parse line: " ++ String.ofList line

/-- Why a text is no script. -/
inductive SyntaxError where
  /-- There is no line that is not blank. -/
  | empty
  /-- A line is wrong. -/
  | at (line : Line) (cause : Cause)
  deriving DecidableEq

namespace SyntaxError

/-- The line that is wrong. -/
def line? : SyntaxError → Option Line
  | empty => none
  | .at line _ => some line

/-- The text of an error, with the number of the line. -/
def message : SyntaxError → String
  | empty => "Empty program"
  | .at line cause => cause.message line.text ++ " (line " ++ toString line.number ++ ")"

end SyntaxError

/-- Why a script cannot be read: it is malformed, or a hit count in it is too large.
    A count is too large if it has more digits than are converted, or if no number
    can hold it. -/
inductive ReadError where
  | malformed (e : SyntaxError)
  | countTooLong (digits : Nat)
  | countTooLarge
  deriving DecidableEq

/-- The most digits of a count that are converted, leading zeros included. -/
def maxCountDigits : Nat := 4300

/-- The text of an error about an integer that no number can hold. -/
def tooLargeMessage : String := "int too large to convert to float"

/-- The text of an error. -/
def ReadError.message : ReadError → String
  | malformed e => e.message
  | countTooLong digits =>
    "Exceeds the limit (" ++ toString maxCountDigits ++
      " digits) for integer string conversion: value has " ++ toString digits ++
      " digits; use sys.set_int_max_str_digits() to increase the limit"
  | countTooLarge => tooLargeMessage

end Carom.Script
