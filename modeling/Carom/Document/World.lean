import Carom.Document.Grid
import Carom.Engine
import Carom.Store

/-!
# Documents of contexts and stores

The variables of a context are read from an object and written as a list of pairs
in the order of their names; so are the counts of a store, which are read from lists
as well. What a document does not tell has the value that it has in the beginning.
A count of zero is no count.
-/

namespace Carom

open Document Checked

/-- A member that may be missing; its faults are told as those of a document of its
    own. -/
def Document.memberOr {α : Type} (d : Document) (key : String) (standIn : α)
    (read : Document → Checked α) : Checked α :=
  match d.get? key with
  | some v => read v
  | none => valid standIn

/-- Variables with those of a list of names and values. -/
def Variables.read (known : Variables) : List (String × Document) → Checked Variables
  | [] => valid known
  | (name, d) :: rest => d.value.andThen fun v => Variables.read (known.insert name v) rest

/-- Variables from an object. -/
def Document.variables (d : Document) : Checked Variables :=
  match d with
  | object members => Variables.read ∅ members
  | _ => flawed .noObject

/-- Variables as a list of pairs. -/
def Variables.document (vs : Variables) : Document :=
  .list (vs.toList.map fun p => .list [.text p.1, p.2.document])

/-- A context from a document. -/
def Document.context (d : Document) : Checked Context :=
  let vars := d.memberOr "variables" ∅ Document.variables
  let ballHits := d.memberOr "ball_hit_count" 0 Document.int
  let squareHits := d.memberOr "square_hit_count" 0 Document.int
  let ballX := d.memberOr "ball_x" .zero Document.number
  let ballY := d.memberOr "ball_y" .zero Document.number
  let ballSpeed := d.memberOr "ball_speed" .zero Document.number
  let ballDirection := d.memberOr "ball_direction" .right Document.direction
  let squareX := d.memberOr "square_x" 0 Document.int
  let squareY := d.memberOr "square_y" 0 Document.int
  vars.andThen fun vars => ballHits.andThen fun ballHits =>
    squareHits.andThen fun squareHits => ballX.andThen fun ballX => ballY.andThen fun ballY =>
      ballSpeed.andThen fun ballSpeed => ballDirection.andThen fun ballDirection =>
        squareX.andThen fun x => squareY.andThen fun y =>
          valid
            { «variables» := vars
              ballHits, squareHits, ballX, ballY, ballSpeed, ballDirection
              square := ⟨x, y⟩ }

/-- A context as a document. -/
def Context.document (c : Context) : Document :=
  .object
    [("variables", Variables.document c.variables), ("ball_hit_count", ofInt c.ballHits),
      ("square_hit_count", ofInt c.squareHits), ("ball_x", ofNumber c.ballX),
      ("ball_y", ofNumber c.ballY), ("ball_speed", ofNumber c.ballSpeed),
      ("ball_direction", c.ballDirection.document), ("square_x", ofInt c.square.x),
      ("square_y", ofInt c.square.y)]

/-- The count of a ball from a pair. -/
def Document.ballCount (d : Document) : Checked (String × Int) :=
  match d with
  | list [identity, count] => identity.string.both count.int
  | _ => flawed .noSequence

/-- The count of a square from a triple. -/
def Document.squareCount (d : Document) : Checked (Position × Int) :=
  match d with
  | list [x, y, count] => (x.int.both (y.int.both count.int)).map fun p => (⟨p.1, p.2.1⟩, p.2.2)
  | _ => flawed .noSequence

/-- Counts from a list of counts. A later count of the same key replaces an earlier one,
    and a count of zero takes it away. -/
def countsOf {κ : Type} [Ord κ] [Std.TransOrd κ] (entries : List (κ × Int)) :
    Std.ExtTreeMap κ Int :=
  entries.foldl (fun counts p => if p.2 = 0 then counts.erase p.1 else counts.insert p.1 p.2) ∅

/-- A store from a document. -/
def Document.store (d : Document) : Checked Store :=
  let vars := d.memberOr "variables" ∅ Document.variables
  let balls := d.memberOr "ball_hits" [] fun v => v.items .noList fun w _ => w.ballCount
  let squares := d.memberOr "square_hits" [] fun v => v.items .noList fun w _ => w.squareCount
  (vars.both (balls.both squares)).map fun p =>
    { «variables» := p.1
      ballCounts := countsOf p.2.1
      squareCounts := countsOf p.2.2 }

/-- A store as a document. -/
def Store.document (s : Store) : Document :=
  .object
    [("variables", Variables.document s.variables),
      ("ball_hits", .list (s.ballCounts.toList.map fun p => .list [.text p.1, ofInt p.2])),
      ("square_hits", .list (s.squareCounts.toList.map fun p =>
        .list [ofInt p.1.x, ofInt p.1.y, ofInt p.2]))]

/-- A tally as a document, without the kinds of fallback that were not taken. -/
def Tally.document (t : Tally) : Document :=
  .object (t.toList.map fun p => (p.1.name, .integer p.2))

end Carom
