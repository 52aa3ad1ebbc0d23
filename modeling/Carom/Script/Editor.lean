import Carom.Script.Program

/-!
# Scripts in the editor

An editor shows the source of a program and gives its text back. Compiling a text
loses nothing of it: if the text is a script, each of its programs keeps the whole
text as its source. If it is malformed, one program without instructions keeps the
text below a note that says what is wrong (`annotate`), under the name that the text
seems to give it (`guessName`).
-/

namespace Carom.Script

open Text

/-- The name of a program whose text gives none. -/
def defaultName : String := "my_program"

/-- A text below a note about what is wrong with it. -/
def annotate (source message : String) : String :=
  "// SYNTAX ERROR: " ++ message ++ "\n// Fix the error above to make this code functional\n\n" ++
    source

/-- The name in a line of a text, if the line begins a program and has a name. -/
def nameIn? (line : List Char) : Option (List Char) :=
  let text := trim isBlank line
  if startsWith "def" text then
    let name := trim isBlank (after "def" text)
    if name.isEmpty then none else some name
  else none

/-- The first name in a line of a text, wherever the line stands. -/
def guessName (source : String) : String :=
  match (lines source.toList).findSome? nameIn? with
  | some name => String.ofList name
  | none => defaultName

/-- What becomes of a text. -/
inductive Compilation where
  /-- The text is a script with these programs. -/
  | compiled (programs : List Program)
  /-- The text is malformed; the program keeps it. -/
  | kept (program : Program) (e : SyntaxError)

namespace Compilation

/-- The programs, at least one in either case. -/
def programs : Compilation → List Program
  | compiled ps => ps
  | kept p _ => [p]

/-- The warning about a text that is kept. -/
def warning? : Compilation → Option String
  | compiled _ => none
  | kept _ e => some ("Keeping unparsed program text: " ++ e.message)

end Compilation

/-- Compile a text. Only a hit count that is too large is an error. -/
def compile (source : String) : Except ReadError Compilation :=
  match readAll source with
  | .ok ps => .ok (.compiled (ps.map fun p => { p with sourceText := some source }))
  | .error (.malformed e) =>
    .ok (.kept ⟨guessName source, [], some (annotate source e.message)⟩ e)
  | .error e => .error e

end Carom.Script
