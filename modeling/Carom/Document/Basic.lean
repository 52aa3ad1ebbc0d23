import Carom.Square

/-!
# Documents

A document is a tree of the kind that JSON writes: nothing, truth values, integers,
other numbers, texts, lists and objects. The library reads its data from documents
and writes it to them.

Reading does not stop at the first thing that is wrong. A `Checked` result is the
data, or all faults of the document in the order of its parts, each with the path to
the place where it is (`Fault`). Two results are combined by `Checked.both`, which keeps
the faults of both.
-/

namespace Carom

/-- A tree of data. -/
inductive Document where
  | null
  | boolean (b : Bool)
  | integer (z : Int)
  /-- A number that is not written as an integer. -/
  | real (x : Binary64)
  | text (s : String)
  | list (items : List Document)
  | object (members : List (String × Document))
  deriving Inhabited

namespace Document

/-- The member of an object with a given key. -/
def get? (d : Document) (key : String) : Option Document :=
  match d with
  | object members => members.lookup key
  | _ => none

theorem sizeOf_lookup_lt {key : String} {v : Document} :
    ∀ {members : List (String × Document)}, members.lookup key = some v →
      sizeOf v < sizeOf members
  | (k, w) :: rest, h => by
    rw [List.lookup_cons] at h
    split at h
    · cases h
      simp only [List.cons.sizeOf_spec, Prod.mk.sizeOf_spec]
      omega
    · have := sizeOf_lookup_lt h
      simp only [List.cons.sizeOf_spec]
      omega

/-- A member of an object is smaller than the object. -/
theorem sizeOf_get?_lt {d v : Document} {key : String} (h : d.get? key = some v) :
    sizeOf v < sizeOf d := by
  cases d with
  | object members =>
    have := sizeOf_lookup_lt h
    simp only [object.sizeOf_spec]
    omega
  | _ => simp [get?] at h

end Document

/-- A step of the path to a place in a document. -/
inductive Key where
  /-- A member of an object, or the variant that its kind chooses. -/
  | field (name : String)
  /-- An item of a list, counted from zero. -/
  | index (n : Nat)
  deriving DecidableEq

/-- What is wrong at a place in a document. -/
inductive Flaw where
  /-- A member that has to be there is not. -/
  | missing
  /-- Not an object. -/
  | noObject
  /-- Not an object, where there is a choice of variants. -/
  | noVariant
  /-- The object does not say which variant it is. -/
  | noKind
  /-- There is no variant of that kind. -/
  | unknownKind
  /-- The kind is not the only one there is. -/
  | otherKind
  /-- Neither a number nor anything that stands for one. -/
  | noNumber
  /-- A text that is no number. -/
  | unreadableNumber
  /-- Neither an integer nor anything that stands for one. -/
  | noInteger
  /-- A text that is no integer. -/
  | unreadableInteger
  /-- A number with a fraction in place of an integer. -/
  | fraction
  /-- Nan or an infinity in place of an integer. -/
  | notFinite
  /-- A number or a text that is too large to be read as an integer. -/
  | oversizedInteger
  /-- Neither a truth value nor anything that could stand for one. -/
  | noTruth
  /-- A number or a text that stands for no truth value. -/
  | unreadableTruth
  /-- Not a text. -/
  | noText
  /-- Not one of the words that are allowed. -/
  | unknownWord
  /-- Not a list, where the data is a fixed sequence. -/
  | noSequence
  /-- Not a list. -/
  | noList
  /-- Less than the least value that is allowed. -/
  | tooSmall
  /-- The index of the active program is out of range. -/
  | activeOutOfRange (e : OutOfRange)
  deriving DecidableEq

namespace Flaw

/-- The name under which a flaw is reported. -/
def name : Flaw → String
  | missing => "missing"
  | noObject => "model_type"
  | noVariant => "model_attributes_type"
  | noKind => "union_tag_not_found"
  | unknownKind => "union_tag_invalid"
  | otherKind => "literal_error"
  | noNumber => "float_type"
  | unreadableNumber => "float_parsing"
  | noInteger => "int_type"
  | unreadableInteger => "int_parsing"
  | fraction => "int_from_float"
  | notFinite => "finite_number"
  | oversizedInteger => "int_parsing_size"
  | noTruth => "bool_type"
  | unreadableTruth => "bool_parsing"
  | noText => "string_type"
  | unknownWord => "enum"
  | noSequence => "tuple_type"
  | noList => "list_type"
  | tooSmall => "greater_than_equal"
  | activeOutOfRange _ => "value_error"

/-- The text of a flaw that comes with one. -/
def message? : Flaw → Option String
  | activeOutOfRange e => some ("Value error, active_program " ++ e.text)
  | _ => none

end Flaw

/-- A flaw and where it is. -/
structure Fault where
  /-- What is wrong. -/
  flaw : Flaw
  /-- The way there from the top of the document. -/
  path : List Key
  deriving DecidableEq

/-- Data that was read, or everything that is wrong with it. -/
inductive Checked (α : Type) where
  /-- The data, without a fault. -/
  | valid (a : α)
  /-- The faults, in order. -/
  | faulty (faults : List Fault)

namespace Checked

variable {α β γ : Type}

/-- A single flaw, right here. -/
def flawed (f : Flaw) : Checked α := faulty [⟨f, []⟩]

/-- The same for data that is computed from the data read. -/
def map (f : α → β) : Checked α → Checked β
  | valid a => valid (f a)
  | faulty faults => faulty faults

/-- Both parts; the faults of both if there are any. -/
def both : Checked α → Checked β → Checked (α × β)
  | valid a, valid b => valid (a, b)
  | valid _, faulty gs => faulty gs
  | faulty fs, valid _ => faulty fs
  | faulty fs, faulty gs => faulty (fs ++ gs)

/-- A further check of data that was read without a fault. -/
def andThen : Checked α → (α → Checked β) → Checked β
  | valid a, f => f a
  | faulty faults, _ => faulty faults

/-- The same at a place further down. -/
def within (key : Key) : Checked α → Checked α
  | valid a => valid a
  | faulty faults => faulty (faults.map fun f => { f with path := key :: f.path })

end Checked

end Carom
