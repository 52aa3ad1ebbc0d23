import Carom.Program
import Carom.Script.Statement

/-!
# Programs of scripts

A program begins with a line `def` and its name, has one statement a line, and ends
with a line `return` or with the text. `read` takes the first program of a text and
ignores what follows its end; `readAll` takes all of them, where the line that begins
a program ends the one before it, and no line may stand between two programs.

For `readAll` the lines are first cut into chunks (`chunks`), one for each program; a
chunk knows its lines, so that the text of each program is the part of the text from
its first line to its last. No line is lost in the cutting (`flatMap_chunks`).
-/

namespace Carom.Script

open Text

/-- The name in a line that has to begin a program. There is no error for want of a name:
    lines are trimmed, so there is always one behind the space (`Line.name_ne_nil`). -/
def Line.header (l : Line) : Except ReadError (List Char) :=
  if l.isHeader then .ok l.name else l.error .noHeader

/-- The program at the beginning of a text, which is kept as its source. -/
def read (source : String) : Except ReadError Program :=
  match significant source.toList with
  | [] => .error (.malformed .empty)
  | first :: rest => do
    let name ← first.header
    let instructions ← (rest.takeWhile fun l => !l.isReturn).mapM Line.statement
    pure ⟨String.ofList name, instructions, some source⟩

/-- The lines of one program: the first one, the statements, and the one that ends it,
    if there is one. -/
structure Chunk where
  header : Line
  statements : List Line
  last? : Option Line
  deriving DecidableEq

namespace Chunk

/-- All lines of a chunk. -/
def lines (c : Chunk) : List Line := c.header :: c.statements ++ c.last?.toList

/-- The number of the last line of a chunk. -/
def lastNumber (c : Chunk) : Nat :=
  match c.last? with
  | some l => l.number
  | none => (c.statements.getLast?.getD c.header).number

/-- The part of a text that a chunk covers, from the lines of the text. -/
def text (source : List (List Char)) (c : Chunk) : List Char :=
  join ((source.take c.lastNumber).drop (c.header.number - 1))

/-- The program of a chunk. -/
def program (source : List (List Char)) (c : Chunk) : Except ReadError Program := do
  let name ← c.header.header
  let instructions ← c.statements.mapM Line.statement
  pure ⟨String.ofList name, instructions, some (String.ofList (c.text source))⟩

end Chunk

/-- Whether a line belongs to the program before it. -/
def Line.isInner (l : Line) : Bool := !l.isHeader && !l.isReturn

/-- The chunks of a sequence of lines. -/
def chunks : List Line → List Chunk
  | [] => []
  | header :: rest =>
    let statements := rest.takeWhile Line.isInner
    match _ : rest.dropWhile Line.isInner with
    | [] => [⟨header, statements, none⟩]
    | next :: more =>
      if next.isHeader then ⟨header, statements, none⟩ :: chunks (next :: more)
      else ⟨header, statements, some next⟩ :: chunks more
termination_by ls => ls.length
decreasing_by
  all_goals
    have shorter : (rest.dropWhile Line.isInner).length ≤ rest.length :=
      (List.dropWhile_suffix Line.isInner).length_le
    simp_all only [List.length_cons]
    omega

/-- The chunks are made of all lines, in order. -/
theorem flatMap_chunks (ls : List Line) : (chunks ls).flatMap Chunk.lines = ls := by
  fun_induction chunks ls with
  | case1 => rfl
  | case2 header rest statements h =>
    have := List.takeWhile_append_dropWhile (p := Line.isInner) (l := rest)
    simp_all [Chunk.lines, statements]
  | case3 header rest statements next more h hn ih =>
    have := List.takeWhile_append_dropWhile (p := Line.isInner) (l := rest)
    simp_all [Chunk.lines, statements]
  | case4 header rest statements next more h hn ih =>
    have := List.takeWhile_append_dropWhile (p := Line.isInner) (l := rest)
    simp_all [Chunk.lines, statements]

/-- All programs of a text. -/
def readAll (source : String) : Except ReadError (List Program) :=
  match significant source.toList with
  | [] => .error (.malformed .empty)
  | ls => (chunks ls).mapM (Chunk.program (lines source.toList))

end Carom.Script
