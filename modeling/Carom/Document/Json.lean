import Carom.Document.Basic
import Carom.Text.Numeral

/-!
# Documents as JSON

A document is read from a JSON text (`Document.ofJson?`) and written as one
(`Document.json`). Reading keeps the members of an object in their order and tells an
integer from another number by how it is written: `10` is an integer, `10.0` and `1e1`
are not. Writing uses ASCII only.

A text is read in two passes. `Token.scan` cuts it into marks and leaves, one character
at a time; `Token.value` puts the leaves together. Numbers may also have the forms that
scripts allow, such as `+1` and `.5`, and nan and the infinities have names.
-/

namespace Carom.Document

/-- A part of a JSON text: a punctuation mark, or a document that has no parts. -/
inductive Token where
  | openList
  | closeList
  | openObject
  | closeObject
  | comma
  | colon
  | leaf (d : Document)

namespace Token

/-- The mark that a character is. -/
def mark? : Char → Option Token
  | '[' => some openList
  | ']' => some closeList
  | '\x7b' => some openObject
  | '\x7d' => some closeObject
  | ',' => some comma
  | ':' => some colon
  | _ => none

/-- The characters between two tokens. -/
def isSpace (c : Char) : Bool := c == ' ' || c == '\t' || c == '\n' || c == '\r'

/-- The integer that a word is: digits, perhaps after a minus sign. -/
def integer? (word : List Char) : Option Int :=
  let (negative, digits) := Text.takeMinus word
  match Text.takeDigits Text.asciiDigit? digits with
  | (d :: ds, []) => some (Binary64.signed negative (Text.ofDigits (d :: ds)))
  | _ => none

/-- The documents that have a name, which is not quoted. -/
def named : List (String × Document) :=
  [("null", null), ("true", boolean true), ("false", boolean false), ("NaN", real .nan),
    ("Infinity", real (.infinite false)), ("-Infinity", real (.infinite true))]

/-- The document that a word outside of quotes is. -/
def word? (word : List Char) : Option Token :=
  match named.lookup (String.ofList word) with
  | some d => some (leaf d)
  | none => match integer? word with
    | some z => some (leaf (integer z))
    | none =>
      (Text.Numeral.read? Text.asciiDigit? word).map fun n => leaf (real n.toNumber)

/-- The character that a letter after a backslash stands for. -/
def escape? : Char → Option Char
  | '"' => some '"'
  | '\\' => some '\\'
  | '/' => some '/'
  | 'b' => some '\x08'
  | 'f' => some '\x0c'
  | 'n' => some '\n'
  | 'r' => some '\r'
  | 't' => some '\t'
  | _ => none

/-- The value of a hexadecimal digit. -/
def hexDigit? (c : Char) : Option Nat :=
  if '0' ≤ c ∧ c ≤ '9' then some (c.toNat - '0'.toNat)
  else if 'a' ≤ c ∧ c ≤ 'f' then some (c.toNat - 'a'.toNat + 10)
  else if 'A' ≤ c ∧ c ≤ 'F' then some (c.toNat - 'A'.toNat + 10)
  else none

/-- How far a text has been cut. What is being read is kept with its last character
    first. -/
inductive Scan where
  /-- Between two tokens. -/
  | between
  /-- In a word outside of quotes. -/
  | word (done : List Char)
  /-- In a quoted text; the first half of a surrogate pair may have been read. -/
  | quoted (done : List Char) (high? : Option Nat)
  /-- After a backslash. -/
  | escaped (done : List Char) (high? : Option Nat)
  /-- In the four digits of a character, of which `left` are missing. -/
  | hex (done : List Char) (high? : Option Nat) (unit left : Nat)

/-- The quoted text with a unit of sixteen bits at its end. A unit that is half of a
    surrogate pair waits for the other one. -/
def Scan.pushUnit? (done : List Char) (high? : Option Nat) (unit : Nat) : Option Scan :=
  match high? with
  | none =>
    if 0xD800 ≤ unit && unit < 0xDC00 then some (quoted done (some unit))
    else if 0xDC00 ≤ unit && unit < 0xE000 then none
    else some (quoted (Char.ofNat unit :: done) none)
  | some high =>
    if 0xDC00 ≤ unit && unit < 0xE000 then
      some (quoted (Char.ofNat (0x10000 + (high - 0xD800) * 0x400 + (unit - 0xDC00)) :: done) none)
    else none

/-- The state after a character between two tokens, and the tokens that it completes. -/
def Scan.start (c : Char) (tokens : List Token) : Scan × List Token :=
  if isSpace c then (between, tokens)
  else if c == '"' then (quoted [] none, tokens)
  else match mark? c with
    | some t => (between, t :: tokens)
    | none => (word [c], tokens)

/-- The state after a character, and the tokens so far, the last one first. -/
def Scan.step (c : Char) (tokens : List Token) : Scan → Option (Scan × List Token)
  | between => some (Scan.start c tokens)
  | word done =>
    if isSpace c || (mark? c).isSome then
      (word? done.reverse).map fun t => Scan.start c (t :: tokens)
    else some (word (c :: done), tokens)
  | quoted done none =>
    if c == '"' then some (between, leaf (text (String.ofList done.reverse)) :: tokens)
    else if c == '\\' then some (escaped done none, tokens)
    else some (quoted (c :: done) none, tokens)
  | quoted done (some high) =>
    if c == '\\' then some (escaped done (some high), tokens) else none
  | escaped done high? =>
    if c == 'u' then some (hex done high? 0 4, tokens)
    else if high?.isSome then none
    else (escape? c).map fun e => (quoted (e :: done) none, tokens)
  | hex done high? unit left => do
    let d ← hexDigit? c
    let unit := 16 * unit + d
    if left ≤ 1 then (pushUnit? done high? unit).map fun s => (s, tokens)
    else some (hex done high? unit (left - 1), tokens)

/-- The tokens of a text, after those in `tokens`, which holds the last one first. -/
def scanFrom (s : Scan) (tokens : List Token) : List Char → Option (List Token)
  | [] => match s with
    | .between => some tokens.reverse
    | .word done => (word? done.reverse).map fun t => (t :: tokens).reverse
    | _ => none
  | c :: cs => match s.step c tokens with
    | some (s, tokens) => scanFrom s tokens cs
    | none => none

/-- The tokens of a text. -/
def scan (cs : List Char) : Option (List Token) := scanFrom .between [] cs

mutual

/-- The document at the beginning of the tokens, and the tokens after it. The first
    argument bounds the depth of the search. -/
def value : Nat → List Token → Option (Document × List Token)
  | 0, _ => none
  | _ + 1, leaf d :: rest => some (d, rest)
  | _ + 1, openList :: closeList :: rest => some (list [], rest)
  | n + 1, openList :: rest => items n [] rest
  | _ + 1, openObject :: closeObject :: rest => some (object [], rest)
  | n + 1, openObject :: rest => members n [] rest
  | _ + 1, _ => none

/-- The list whose items, after those in `done`, the tokens begin with. -/
def items : Nat → List Document → List Token → Option (Document × List Token)
  | 0, _, _ => none
  | n + 1, done, rest => match value n rest with
    | some (d, comma :: rest) => items n (d :: done) rest
    | some (d, closeList :: rest) => some (list (d :: done).reverse, rest)
    | _ => none

/-- The object whose members, after those in `done`, the tokens begin with. -/
def members : Nat → List (String × Document) → List Token → Option (Document × List Token)
  | n + 1, done, leaf (text key) :: colon :: rest => match value n rest with
    | some (d, comma :: rest) => members n ((key, d) :: done) rest
    | some (d, closeObject :: rest) => some (object ((key, d) :: done).reverse, rest)
    | _ => none
  | _, _, _ => none

end

end Token

/-- The document that a JSON text is. Each token takes at most two steps of the
    search. -/
def ofJson? (s : String) : Option Document :=
  match Token.scan s.toList with
  | none => none
  | some tokens => match Token.value (2 * tokens.length + 1) tokens with
    | some (d, []) => some d
    | _ => none

/-! ## Writing -/

/-- The last of the hexadecimal digits of a number. -/
def hexDigit (n : Nat) : Char := (Nat.toDigits 16 (n % 16)).headD '0'

/-- A unit of sixteen bits in a quoted text. -/
def unitJson (n : Nat) : List Char :=
  ['\\', 'u', hexDigit (n / 0x1000), hexDigit (n / 0x100), hexDigit (n / 0x10), hexDigit n]

/-- A character in a quoted text. -/
def charJson (c : Char) : List Char :=
  let n := c.toNat
  if c == '"' || c == '\\' then ['\\', c]
  else if 0x20 ≤ n && n < 0x7F then [c]
  else if n < 0x10000 then unitJson n
  else unitJson (0xD800 + (n - 0x10000) / 0x400) ++ unitJson (0xDC00 + (n - 0x10000) % 0x400)

/-- A text in quotes. -/
def quote (s : String) : String := "\"" ++ String.ofList (s.toList.flatMap charJson) ++ "\""

/-- A number as JSON writes it; what it has no form for, nan and the infinities, is
    quoted. -/
def realJson (x : Binary64) : String := if x.isFinite then x.text else quote x.text

mutual

/-- A text and the JSON text of a document after it. -/
def writeAfter (out : String) : Document → String
  | null => out ++ "null"
  | boolean true => out ++ "true"
  | boolean false => out ++ "false"
  | integer z => out ++ toString z
  | real x => out ++ realJson x
  | text s => out ++ quote s
  | list [] => out ++ "[]"
  | list (d :: ds) => writeItems (writeAfter (out ++ "[") d) ds ++ "]"
  | object [] => out ++ "\x7b\x7d"
  | object (m :: ms) => writeMembers (writeMember (out ++ "\x7b") m) ms ++ "\x7d"

/-- A text and more items of a list after it. -/
def writeItems (out : String) : List Document → String
  | [] => out
  | d :: ds => writeItems (writeAfter (out ++ ",") d) ds

/-- A text and a member of an object after it. -/
def writeMember (out : String) : String × Document → String
  | (key, d) => writeAfter (out ++ quote key ++ ":") d

/-- A text and more members of an object after it. -/
def writeMembers (out : String) : List (String × Document) → String
  | [] => out
  | m :: ms => writeMembers (writeMember (out ++ ",") m) ms

end

/-- The JSON text of a document, on one line. -/
def json (d : Document) : String := writeAfter "" d

end Carom.Document
