import Carom.Text.Blank
import Carom.Text.Numeral

/-!
# Numerals of plain digits

Numbers are written with the digits `0` to `9`. Every table of digits that numerals are read
with knows these (`KnowsDigits`), so what is written is read in the same way in scripts and in
documents: digits are taken up to whatever follows them (`takeDigits_append_of_plain`), and a
numeral is read from its parts, with a point or without (`Numeral.read?_pointed`,
`Numeral.read?_whole`), and with a minus sign (`Numeral.read?_minus`).
-/

namespace Carom.Text

/-- A text of nothing but the digits `0` to `9`. -/
def Plain (cs : List Char) : Prop := ∀ c ∈ cs, c.isDigit

theorem plain_nil : Plain [] := List.forall_mem_nil _

theorem plain_cons {c : Char} {cs : List Char} : Plain (c :: cs) ↔ c.isDigit ∧ Plain cs :=
  List.forall_mem_cons

theorem plain_append {cs ds : List Char} : Plain (cs ++ ds) ↔ Plain cs ∧ Plain ds :=
  List.forall_mem_append

theorem plain_replicate_zero (n : Nat) : Plain (List.replicate n '0') := fun c h => by
  rw [(List.mem_replicate.1 h).2]
  rfl

/-- A number is written in plain digits. -/
theorem plain_toDigits (n : Nat) : Plain (Nat.toDigits 10 n) := fun _ =>
  Nat.isDigit_of_mem_toDigits (by decide) (by decide)

theorem isWhiteSpace_of_plain {cs : List Char} (h : Plain cs) :
    ∀ c ∈ cs, isWhiteSpace c = false := fun c mem => by
  have low : 48 ≤ c.toNat := (Char.isDigit_iff_toNat.1 (h c mem)).1
  have high : c.toNat ≤ 57 := (Char.isDigit_iff_toNat.1 (h c mem)).2
  simp [isWhiteSpace]
  omega

/-- The value of one of the digits `0` to `9`. -/
def digitValue (c : Char) : Nat := c.toNat - '0'.toNat

/-- The values of plain digits denote the number that the digits are. -/
theorem ofDigits_map_digitValue (cs : List Char) :
    ofDigits (cs.map digitValue) = Nat.ofDigitChars 10 cs 0 := by
  rw [ofDigits, List.foldl_map]
  rfl

/-- Zeros in front do not count. -/
theorem ofDigitChars_zeros_append (n : Nat) (cs : List Char) :
    Nat.ofDigitChars 10 (List.replicate n '0' ++ cs) 0 = Nat.ofDigitChars 10 cs 0 := by
  rw [Nat.ofDigitChars_append, Nat.ofDigitChars_replicate_zero, Nat.mul_zero]

/-- Zeros behind multiply by ten. -/
theorem ofDigitChars_append_zeros (cs : List Char) (n : Nat) :
    Nat.ofDigitChars 10 (cs ++ List.replicate n '0') 0 = Nat.ofDigitChars 10 cs 0 * 10 ^ n := by
  rw [Nat.ofDigitChars_append, Nat.ofDigitChars_replicate_zero, Nat.mul_comm]

/-- A table of digits that knows `0` to `9`, and does not take for digits what stands next to
    them in a number. -/
structure KnowsDigits (digit : Char → Option Nat) : Prop where
  value : ∀ c, c.isDigit → digit c = some (digitValue c)
  point : digit '.' = none
  mark : digit 'e' = none

/-- Readers of ASCII digits know the plain ones. -/
theorem knowsDigits_asciiDigit? : KnowsDigits asciiDigit? where
  value c h := if_pos (Char.isDigit_iff_toNat.1 h)
  point := by decide
  mark := by decide

/-- And so do readers of all writing systems. -/
theorem knowsDigits_digit? : KnowsDigits digit? where
  value c h := digit?_of_asciiDigit? (knowsDigits_asciiDigit?.value c h)
  point := by decide
  mark := by decide

section

variable {digit : Char → Option Nat} (knows : KnowsDigits digit)

include knows

/-- Plain digits are taken up to whatever follows them. -/
theorem takeDigits_append_of_plain {cs rest : List Char} (plain : Plain cs)
    (stop : ∀ c ∈ rest.head?, digit c = none) :
    takeDigits digit (cs ++ rest) = (cs.map digitValue, rest) := by
  induction cs with
  | nil =>
    cases rest with
    | nil => rfl
    | cons c rest => rw [List.nil_append, takeDigits, stop c rfl]; rfl
  | cons c cs ih =>
    obtain ⟨isDigit, plain⟩ := plain_cons.1 plain
    rw [List.cons_append, takeDigits, knows.value c isDigit, ih plain]
    rfl

/-- Plain digits are all taken. -/
theorem takeDigits_of_plain {cs : List Char} (plain : Plain cs) :
    takeDigits digit cs = (cs.map digitValue, []) := by
  simpa using @takeDigits_append_of_plain digit knows cs [] plain (by simp)

end

/-- A digit is no sign. -/
theorem takeSign_of_isDigit {c : Char} (h : c.isDigit) (cs : List Char) :
    takeSign (c :: cs) = (false, c :: cs) := by
  rw [takeSign.eq_def]
  split
  · simp_all
  · simp_all
  · rfl

theorem takeMinus_of_isDigit {c : Char} (h : c.isDigit) (cs : List Char) :
    takeMinus (c :: cs) = (false, c :: cs) := by
  rw [takeMinus.eq_def]
  split
  · simp_all
  · rfl

/-- No sign is taken where digits begin. -/
theorem takeSign_append_of_plain {cs : List Char} (plain : Plain cs) (ne : cs ≠ [])
    (rest : List Char) : takeSign (cs ++ rest) = (false, cs ++ rest) := by
  obtain ⟨c, cs, rfl⟩ := List.exists_cons_of_ne_nil ne
  exact takeSign_of_isDigit (plain_cons.1 plain).1 _

namespace Numeral

/-- A numeral is made of its parts. -/
theorem read?_of_parts {digit : Char → Option Nat} {cs unsigned behind rest : List Char}
    {negative : Bool} {ds es : List Nat} {e : Int} (sign : takeSign cs = (negative, unsigned))
    (whole : takeDigits digit unsigned = (ds, behind)) (ne : ds ≠ [])
    (fraction : takeFraction digit behind = (es, rest)) (exponent : exponent? digit rest = some e) :
    read? digit cs = some ⟨negative, ofDigits (ds ++ es), e - es.length⟩ := by
  simp [read?, sign, whole, fraction, exponent, ne]

/-- A minus sign makes a numeral negative. -/
theorem read?_minus (digit : Char → Option Nat) {c : Char} (h : c.isDigit) (cs : List Char) :
    read? digit ('-' :: c :: cs) =
      (read? digit (c :: cs)).map fun n => { n with negative := true } := by
  have minus : takeSign ('-' :: c :: cs) = (true, c :: cs) := rfl
  simp only [read?, minus, takeSign_of_isDigit h]
  split
  · rfl
  · rw [Option.map_map]
    rfl

section

variable {digit : Char → Option Nat} (knows : KnowsDigits digit)

include knows

/-- The exponent of a numeral, from its sign and its digits. -/
theorem exponent?_signed {ds : List Char} (plain : Plain ds) (ne : ds ≠ []) (negative : Bool) :
    exponent? digit ('e' :: (if negative then '-' else '+') :: ds) =
      some (Binary64.signed negative (Nat.ofDigitChars 10 ds 0)) := by
  have sign : takeSign ((if negative then '-' else '+') :: ds) = (negative, ds) := by
    cases negative <;> rfl
  have taken := takeDigits_of_plain knows plain
  obtain ⟨d, ds, rfl⟩ := List.exists_cons_of_ne_nil ne
  simp [exponent?, sign, taken, ← ofDigits_map_digitValue]

variable {whole fraction rest : List Char} {e : Int} (plain : Plain whole) (ne : whole ≠ [])

include plain ne

/-- A numeral with a point. -/
theorem read?_pointed (plain' : Plain fraction) (exponent : exponent? digit rest = some e)
    (stop : ∀ c ∈ rest.head?, digit c = none) :
    read? digit (whole ++ '.' :: (fraction ++ rest)) =
      some ⟨false, Nat.ofDigitChars 10 (whole ++ fraction) 0, e - fraction.length⟩ := by
  have point : ∀ c ∈ ('.' :: (fraction ++ rest)).head?, digit c = none := by
    rintro c ⟨⟩
    exact knows.point
  have digits := takeDigits_append_of_plain knows plain point
  have part := takeDigits_append_of_plain knows plain' stop
  rw [read?_of_parts (takeSign_append_of_plain plain ne _) digits (by simpa using ne) part exponent,
    ← List.map_append, ofDigits_map_digitValue, List.length_map]

/-- A numeral without a point, with an exponent. -/
theorem read?_whole (exponent : exponent? digit ('e' :: rest) = some e) :
    read? digit (whole ++ 'e' :: rest) = some ⟨false, Nat.ofDigitChars 10 whole 0, e⟩ := by
  have mark : ∀ c ∈ ('e' :: rest).head?, digit c = none := by
    rintro c ⟨⟩
    exact knows.mark
  have digits := takeDigits_append_of_plain knows plain mark
  have none : takeFraction digit ('e' :: rest) = ([], 'e' :: rest) := rfl
  rw [read?_of_parts (takeSign_append_of_plain plain ne _) digits (by simpa using ne) none exponent,
    List.append_nil, ofDigits_map_digitValue]
  simp

end

end Numeral

end Carom.Text
