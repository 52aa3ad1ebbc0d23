import Carom.Binary64.Rounding

/-!
# Arithmetic

Each operation is computed exactly on counts of quanta and rounded once. A sum
that vanishes is positive zero unless both summands are negative; products and
quotients take the sign that the rule of signs gives; a remainder takes the sign
of the dividend. Operations without a result, such as the difference of two
infinities, give nan.
-/

namespace Carom.Binary64

/-- The number with the opposite sign. -/
protected def neg : Binary64 → Binary64
  | nan => nan
  | infinite negative => infinite (!negative)
  | finite negative quanta fits => finite (!negative) quanta fits

/-- The magnitude. -/
def abs : Binary64 → Binary64
  | nan => nan
  | infinite _ => infinite false
  | finite _ quanta fits => finite false quanta fits

/-- The number nearest to an integer count of quanta. A zero count is positive
    zero. -/
def ofQuanta (z : Int) : Binary64 := ofRatio (decide (z < 0)) z.natAbs 1

/-- The number nearest to an integer; infinite where it is out of range. -/
def ofInt (z : Int) : Binary64 := ofQuanta (z * one)

protected def add : Binary64 → Binary64 → Binary64
  | nan, _ => nan
  | _, nan => nan
  | infinite s, infinite t => if s = t then infinite s else nan
  | infinite s, finite .. => infinite s
  | finite .., infinite t => infinite t
  | finite s m _, finite t n _ =>
    let sum := signed s m + signed t n
    if sum = 0 then finite (s && t) 0 representable_zero else ofQuanta sum

protected def sub (a b : Binary64) : Binary64 := a.add b.neg

protected def mul : Binary64 → Binary64 → Binary64
  | nan, _ => nan
  | _, nan => nan
  | infinite s, infinite t => infinite (s != t)
  | infinite s, finite t n _ => if n = 0 then nan else infinite (s != t)
  | finite s m _, infinite t => if m = 0 then nan else infinite (s != t)
  | finite s m _, finite t n _ => ofRatio (s != t) (m * n) one

protected def div : Binary64 → Binary64 → Binary64
  | nan, _ => nan
  | _, nan => nan
  | infinite _, infinite _ => nan
  | infinite s, finite t _ _ => infinite (s != t)
  | finite s _ _, infinite t => finite (s != t) 0 representable_zero
  | finite s m _, finite t n _ =>
    if n = 0 then if m = 0 then nan else infinite (s != t)
    else ofRatio (s != t) (m * one) n

/-- What is left of the dividend after division toward zero, with the sign of
    the dividend. A finite number is what is left of itself after division by
    infinity; nothing is left of an infinite one, nor after division by zero. -/
def rem : Binary64 → Binary64 → Binary64
  | nan, _ => nan
  | _, nan => nan
  | infinite _, _ => nan
  | finite s m fits, infinite _ => finite s m fits
  | finite s m _, finite _ n _ => if n = 0 then nan else ofRatio s (m % n) 1

instance : Neg Binary64 := ⟨Binary64.neg⟩
instance : Add Binary64 := ⟨Binary64.add⟩
instance : Sub Binary64 := ⟨Binary64.sub⟩
instance : Mul Binary64 := ⟨Binary64.mul⟩
instance : Div Binary64 := ⟨Binary64.div⟩
instance : Mod Binary64 := ⟨Binary64.rem⟩

end Carom.Binary64
