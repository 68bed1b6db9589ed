import Sift.Number.Binary64

/-!
# The shortest decimal of a binary number

Among the decimals that round to a given binary64 number, one with the fewest digits is chosen, and
of several such decimals the one nearest to the number. The search goes through the grids of one,
two, … seventeen digits and tests on each the two neighbours of the number, in exact arithmetic: a
grid has a point in the interval of the decimals that round to the number only if one of these two
is in it.
-/

namespace Sift

/-- What is chosen of two decimals equally near to a number. -/
inductive TieRule where
  | up
  | even
deriving DecidableEq

/-- A decimal: its digits as one number, and the power of ten that they count. -/
structure Digits where
  coefficient : Nat
  exponent : Int
deriving DecidableEq, Inhabited

def Digits.stripZeros (d : Digits) : Digits :=
  if d.coefficient = 0 ∨ d.coefficient % 10 ≠ 0 then d
  else Digits.stripZeros ⟨d.coefficient / 10, d.exponent + 1⟩
termination_by d.coefficient

/-- The decimals that round to a number, as an interval of quotients by `scale`. -/
structure RoundingInterval where
  low : Nat
  value : Nat
  high : Nat
  scale : Nat
  /-- Whether the ends belong to the interval. -/
  closed : Bool

/-- The interval of the decimals that round to a positive number. Its ends lie halfway to the
neighbours, and belong to it if the last binary digit is even, as ties are rounded to such numbers.
-/
def RoundingInterval.ofUnits (units : Nat) : RoundingInterval :=
  let step := twoTo (excessDigits units)
  -- below a power of two the numbers lie twice as dense
  let below := if units = twoTo 52 * step ∧ 1 < step then step / 2 else step
  { low := 2 * units - below
    value := 2 * units
    high := 2 * units + step
    scale := 2 * unitsPerOne
    closed := units / step % 2 == 0 }

namespace RoundingInterval

variable (i : RoundingInterval)

/-- The power of ten of the leading digit. Numbers below `10 ^ -400` do not occur. -/
def leadingExponent : Int := (decimalLength (i.value * tenTo 400 / i.scale) : Int) - 401

/-- A number with the zeros of a power of ten behind it. Negative powers add none. -/
private def scaled (n : Nat) (exponent : Int) : Nat := n * tenTo exponent.toNat

def contains (d : Digits) : Bool :=
  let point := scaled d.coefficient d.exponent * i.scale
  let low := scaled i.low (-d.exponent)
  let high := scaled i.high (-d.exponent)
  if i.closed then low ≤ point && point ≤ high else low < point && point < high

/-- The decimal of the given exponent next to the number, among those that round to it. -/
def nearest? (ties : TieRule) (exponent : Int) : Option Digits :=
  let value := scaled i.value (-exponent)
  let grid := scaled i.scale exponent
  let down : Digits := ⟨value / grid, exponent⟩
  let up : Digits := ⟨value / grid + 1, exponent⟩
  match i.contains down, i.contains up with
  | false, false => none
  | true, false => some down
  | false, true => some up
  | true, true =>
    match compare (2 * (value % grid)) grid with
    | .lt => some down
    | .gt => some up
    | .eq => some (if ties = .even ∧ down.coefficient % 2 = 0 then down else up)

def shortest (ties : TieRule) : Digits :=
  let leading := i.leadingExponent
  (((List.range 17).findSome? fun (n : Nat) => i.nearest? ties (leading - n)).getD
    ⟨scaled i.value (16 - leading) / scaled i.scale (leading - 16), leading - 16⟩).stripZeros

end RoundingInterval

/-- The shortest decimal that rounds to a number of units. -/
def shortestDigits (ties : TieRule) (units : Nat) : Digits :=
  if units = 0 then ⟨0, 0⟩ else (RoundingInterval.ofUnits units).shortest ties

end Sift
