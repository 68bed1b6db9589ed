import Sift.Number.Binary64

/-!
# Decimal arithmetic

What the arithmetic of values asks of decimal numbers. A result that the decimals cannot hold is
`none`, and the caller falls back on floating-point arithmetic.
-/

namespace Sift

/-- Decimal numbers with their operations. -/
structure Decimals where
  Number : Type
  ofInteger? : Int64 → Option Number
  /-- The decimal that stands for a float. -/
  ofBinary? : Binary64 → Option Number
  add : Number → Number → Option Number
  sub : Number → Number → Option Number
  mul : Number → Number → Option Number
  div : Number → Number → Option Number
  /-- The remainder of the division toward zero. -/
  rem : Number → Number → Option Number
  /-- Rounding toward minus infinity. -/
  floor : Number → Option Number
  isWhole : Number → Bool
  /-- The whole part as a machine integer. -/
  toInteger? : Number → Option Int64
  toBinary? : Number → Option Binary64

end Sift
