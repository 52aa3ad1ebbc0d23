import Carom.Binary64.Arithmetic
import Carom.Document.Numeral
import Carom.Numeric

/-!
# Scalars and members of documents

What is accepted for a number, an integer, a truth value, a text and a word, and how
the members of an object and the items of a list are read. Numbers and integers may
be given as texts (`Carom.Document.Numeral`) and by truth values, a number without a
fraction is accepted for an integer, and some words and numbers for truth values.

Numbers are written as texts, the shortest that read back, since a document has no
other form for nan and the infinities. Integers beyond `2 ^ 53` are written as texts
too.
-/

namespace Carom

namespace Document

open Checked

/-! ## Scalars -/

/-- A number. An integer is one if it is in range. -/
def number : Document → Checked Binary64
  | real x => valid x
  | integer z => match Binary64.ofInt? z with
    | some x => valid x
    | none => flawed .noNumber
  | boolean b => valid (Binary64.ofInt (if b then 1 else 0))
  | text s => match Text.number? s.toList with
    | some x => valid x
    | none => flawed .unreadableNumber
  | _ => flawed .noNumber

/-- A number that is not negative. -/
def nonnegative (d : Document) : Checked { x : Binary64 // Binary64.zero ≤ x } :=
  d.number.andThen fun x =>
    if h : Binary64.zero ≤ x then valid ⟨x, h⟩ else flawed .tooSmall

/-- The integer that a number is; it has to fit in a signed word of 64 bits, the least of
    these excepted. -/
def intOfReal (x : Binary64) : Checked Int :=
  match x.truncate? with
  | none => flawed .notFinite
  | some z =>
    if Binary64.ofInt z != x then flawed .fraction
    else if z.natAbs < 2 ^ 63 then valid z
    else flawed .oversizedInteger

/-- An integer. -/
def int : Document → Checked Int
  | integer z => valid z
  | boolean b => valid (if b then 1 else 0)
  | real x => intOfReal x
  | text s => Text.integer s.toList
  | _ => flawed .noInteger

/-- An integer that is at least `least`. -/
def natural (least : Nat) (d : Document) : Checked { n : Nat // least ≤ n } :=
  d.int.andThen fun z =>
    if h : (least : Int) ≤ z then valid ⟨z.toNat, by omega⟩ else flawed .tooSmall

/-- The words that stand for *false*, in letters of either case. -/
def falseWords : List String := ["0", "f", "n", "no", "off", "false"]

/-- The words that stand for *true*, in letters of either case. -/
def trueWords : List String := ["1", "t", "y", "on", "yes", "true"]

/-- The truth value that an integer stands for. -/
def truthOfInt (z : Int) : Checked Bool :=
  if z = 0 then valid false else if z = 1 then valid true else flawed .unreadableTruth

/-- A truth value, or a number or a word that stands for one. Integers beyond 64 bits and
    numbers that are no integers stand for nothing. -/
def truth : Document → Checked Bool
  | boolean b => valid b
  | integer z => if -2 ^ 63 ≤ z ∧ z < 2 ^ 63 then truthOfInt z else flawed .noTruth
  | real x => match intOfReal x with
    | valid z => truthOfInt z
    | faulty _ => flawed .noTruth
  | text s =>
    let word := s.map Char.toLower
    if falseWords.contains word then valid false
    else if trueWords.contains word then valid true
    else flawed .unreadableTruth
  | _ => flawed .noTruth

/-- A text. -/
def string : Document → Checked String
  | text s => valid s
  | _ => flawed .noText

/-- A text that is one of the words of which `read` knows the meaning. -/
def word {α : Type} (read : String → Option α) : Document → Checked α
  | text s => match read s with
    | some a => valid a
    | none => flawed .unknownWord
  | _ => flawed .unknownWord

/-! ## Members and items -/

/-- Nothing for null, and else what `read` makes of the document. -/
def nullable {α : Type} (d : Document) (read : (v : Document) → sizeOf v ≤ sizeOf d → Checked α) :
    Checked (Option α) :=
  match d with
  | null => valid none
  | d => (read d (Nat.le_refl _)).map some

/-- A member that has to be there. -/
def field {α : Type} (d : Document) (key : String)
    (read : (v : Document) → sizeOf v < sizeOf d → Checked α) : Checked α :=
  within (.field key) <| match h : d.get? key with
    | some v => read v (sizeOf_get?_lt h)
    | none => flawed .missing

/-- A member with a value that stands in where it is missing. -/
def fieldOr {α : Type} (d : Document) (key : String) (standIn : α)
    (read : (v : Document) → sizeOf v < sizeOf d → Checked α) : Checked α :=
  match h : d.get? key with
  | some v => within (.field key) (read v (sizeOf_get?_lt h))
  | none => valid standIn

/-- What `read` makes of each document, counted from `n`. -/
def each {α : Type} (n : Nat) :
    (items : List Document) → ((v : Document) → v ∈ items → Checked α) → Checked (List α)
  | [], _ => valid []
  | v :: rest, read =>
    let first := within (.index n) (read v List.mem_cons_self)
    let others := each (n + 1) rest fun w h => read w (List.mem_cons_of_mem v h)
    (first.both others).map fun p => p.1 :: p.2

/-- The items of a list; `flaw` is what is wrong with a document that is none. -/
def items {α : Type} (d : Document) (flaw : Flaw)
    (read : (v : Document) → sizeOf v < sizeOf d → Checked α) : Checked (List α) :=
  match d with
  | list vs => each 0 vs fun v h => read v (by
      have := List.sizeOf_lt_of_mem h
      simp only [list.sizeOf_spec]
      omega)
  | _ => flawed flaw

/-- An object. -/
def isObject : Document → Bool
  | object _ => true
  | _ => false

/-- What `read` makes of an object. -/
def record {α : Type} (d : Document) (read : Checked α) : Checked α :=
  if d.isObject then read else flawed .noObject

/-- The kind that an object says it is, which chooses between variants. -/
def kind (d : Document) : Checked String :=
  if d.isObject then
    match d.get? "kind" with
    | some (text k) => valid k
    | some _ => flawed .unknownKind
    | none => flawed .noKind
  else
    flawed .noVariant

/-- A variant of a kind, which the path to its members names. -/
def ofKind {α : Type} (kind : String) (read : Checked α) : Checked α := within (.field kind) read

/-! ## Writing -/

/-- A number as a document. -/
def ofNumber (x : Binary64) : Document := text x.text

/-- An integer as a document. -/
def ofInt (z : Int) : Document := if z.natAbs ≤ 2 ^ 53 then integer z else text (toString z)

/-- A variant as a document: its kind and its members. -/
def variant (kind : String) (members : List (String × Document)) : Document :=
  object (("kind", text kind) :: members)

end Document

end Carom
