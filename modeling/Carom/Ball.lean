import Carom.Value

/-!
# Balls
-/

namespace Carom

/-- A ball at the moment in which it hits a square. -/
structure Ball where
  /-- What tells this ball from all others; its hits are counted under it. -/
  identity : String
  /-- The horizontal coordinate. -/
  x : Binary64
  /-- The vertical coordinate. -/
  y : Binary64
  /-- The speed, which is not negative. -/
  speed : Binary64
  /-- The direction of travel. -/
  direction : Direction
  /-- The name of the colour. -/
  color : String
  speed_nonneg : Binary64.zero ≤ speed

instance : BEq Ball where
  beq a b := a.identity == b.identity && a.x == b.x && a.y == b.y && a.speed == b.speed &&
    a.direction == b.direction && a.color == b.color

end Carom
