import Carom.Document.Basic
import Carom.Text.Blank
import Carom.Text.Numeral

/-!
# Numbers and integers given as texts

A document may give a number or an integer as a text. White space around it does not
count. Underscores may group its characters, each alone between two others (`ungroup?`);
in front of the first digit of an integer that is not zero, between zeros, they may
stand together. Its minus sign may also stand after these zeros: `00-7` is `-7`.

A text that begins with more digits than `maxIntegerDigits` is too long to be read as
an integer, whatever follows.
-/

namespace Carom.Text

/-- Whether each underscore is followed by a character other than an underscore. -/
def underscoresFollowed : List Char → Bool
  | [] => true
  | ['_'] => false
  | '_' :: '_' :: _ => false
  | _ :: cs => underscoresFollowed cs

/-- The text without its underscores, if each of them stands alone between two other
    characters. -/
def ungroup? (cs : List Char) : Option (List Char) :=
  if cs.head? != some '_' && underscoresFollowed cs then some (cs.filter (· != '_')) else none

theorem underscoresFollowed_of_not_mem {cs : List Char} (h : '_' ∉ cs) :
    underscoresFollowed cs = true := by
  fun_induction underscoresFollowed cs <;> simp_all

/-- A text without underscores is left as it is. -/
theorem ungroup?_of_not_mem {cs : List Char} (h : '_' ∉ cs) : ungroup? cs = some cs := by
  have head : cs.head? ≠ some '_' := fun e => h (List.mem_of_head? e)
  have all : ∀ c ∈ cs, c ≠ '_' := fun c hc e => h (e ▸ hc)
  simpa [ungroup?, head, underscoresFollowed_of_not_mem h, List.filter_eq_self] using all

/-- The sign and the name of a number that has no digits: `inf`, `infinity` or `nan`, in
    letters of either case. -/
def namedNumber? (cs : List Char) : Option Binary64 :=
  let (negative, cs) := takeSign cs
  let name := cs.map Char.toLower
  if name == ['i', 'n', 'f'] || name == ['i', 'n', 'f', 'i', 'n', 'i', 't', 'y'] then
    some (.infinite negative)
  else if name == ['n', 'a', 'n'] then some .nan
  else none

/-- The number that a text without white space and underscores is. -/
def plainNumber? (cs : List Char) : Option Binary64 :=
  match namedNumber? cs with
  | some x => some x
  | none => (Numeral.read? asciiDigit? cs).map Numeral.toNumber

/-- The number that a text stands for: it has white space around it, or underscores in
    it, but not both. -/
def number? (cs : List Char) : Option Binary64 :=
  match plainNumber? (trim isWhiteSpace cs) with
  | some x => some x
  | none => (ungroup? cs).bind plainNumber?

/-- The most digits that an integer is read from. -/
def maxIntegerDigits : Nat := 4300

/-- Whether a text begins with an integer that is too long. No integer begins with a plus
    sign here, nor with a zero that has digits after it. -/
def beginsOverlong (cs : List Char) : Bool :=
  let digits := (takeDigits asciiDigit? (takeMinus cs).2).1
  digits.head? != some 0 && maxIntegerDigits < digits.length

/-- An integer text without a fraction of zeros, if it has one of at least one digit. -/
def dropZeroFraction (cs : List Char) : List Char :=
  let whole := cs.takeWhile (· != '.')
  match cs.drop whole.length with
  | '.' :: '0' :: zeros => if zeros.all (· == '0') then whole else cs
  | _ => cs

/-- The text without the zeros in front and the underscores among them; of nothing but
    these, what stands last is left. -/
def dropLeadingZeros (cs : List Char) : List Char :=
  match cs with
  | '0' :: more =>
    match more.dropWhile fun c => c == '0' || c == '_' with
    | [] => [more.getLastD '0']
    | rest => rest
  | other => other

/-- Whether there is a minus sign after the zeros in front of an integer text, and its
    digits after these. Two signs do not stand together. -/
def integerDigits? (cs : List Char) : Option (Bool × List Nat) :=
  if cs.head? == some '-' then none
  else match ungroup? (dropLeadingZeros (dropZeroFraction cs)) with
    | none => none
    | some rest =>
      let (negative, digits) := takeMinus rest
      match takeDigits asciiDigit? digits with
      | (0 :: _ :: _, _) => none
      | (d :: ds, []) => some (negative, d :: ds)
      | _ => none

/-- The integer that a text stands for. It has one minus sign at most. -/
def integer (cs : List Char) : Checked Int :=
  if beginsOverlong cs then .flawed .oversizedInteger
  else
    let (negative, unsigned) := takeSign (trim isWhiteSpace cs)
    match integerDigits? unsigned with
    | none => .flawed .unreadableInteger
    | some (inner, digits) =>
      if negative && inner || maxIntegerDigits < digits.length then .flawed .unreadableInteger
      else .valid (Binary64.signed (negative || inner) (ofDigits digits))

end Carom.Text
