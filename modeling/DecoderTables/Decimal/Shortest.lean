import DecoderTables.Decimal.Binary64

/-!
The fewest decimal digits that identify a binary floating-point number: the first grid of a
power of ten, from coarse to fine, with a point among the reals that round to the number.
-/

namespace DecoderTables.Decimal

/-- The number `digits * 10 ^ exponent`. -/
structure Digits where
  digits : Nat
  exponent : Int
deriving DecidableEq

namespace Binary64

/-- Whether the number below is half as far away as the number above. -/
def narrowBelow (x : Binary64) : Bool :=
  x.fraction = 0 && 1 < x.biasedExponent

/-- Compares `d` with `quarters * 2 ^ (x.exponent - 2)`. -/
def compareQuarters (x : Binary64) (d : Digits) (quarters : Nat) : Ordering :=
  let power := x.exponent - 2
  compare ((d.digits * Nat.pow 10 d.exponent.toNat) <<< (-power).toNat)
    ((quarters * Nat.pow 10 (-d.exponent).toNat) <<< power.toNat)

/-- Whether `d` lies among the reals that round to the absolute value of `x`. -/
def identifiedBy (x : Binary64) (d : Digits) : Bool :=
  let even := x.significand % 2 = 0
  let below := x.compareQuarters d (4 * x.significand - if x.narrowBelow then 1 else 2)
  let above := x.compareQuarters d (4 * x.significand + 2)
  (below = .gt || (even && below = .eq)) && (above = .lt || (even && above = .eq))

/-- The absolute value of `x` in units of `10 ^ exponent`, rounded down. -/
def floorAt (x : Binary64) (exponent : Int) : Nat :=
  x.numerator * Nat.pow 10 (-exponent).toNat / (x.denominator * Nat.pow 10 exponent.toNat)

/-- The point of the grid that identifies `x`: of two such points the nearer, of two equally
near the even one. -/
def gridPoint (x : Binary64) (exponent : Int) : Option Digits :=
  let lower : Digits := ⟨x.floorAt exponent, exponent⟩
  let upper : Digits := ⟨x.floorAt exponent + 1, exponent⟩
  match x.identifiedBy lower, x.identifiedBy upper with
  | false, false => none
  | true, false => some lower
  | false, true => some upper
  | true, true =>
      let middle : Digits := ⟨10 * x.floorAt exponent + 5, exponent - 1⟩
      match x.compareQuarters middle (4 * x.significand) with
      | .gt => some lower
      | .lt => some upper
      | .eq => some (if lower.digits % 2 = 0 then lower else upper)

/-- The absolute value of `x` without loss. -/
def exactDigits (x : Binary64) : Digits :=
  if 0 ≤ x.exponent then ⟨x.significand <<< x.exponent.toNat, 0⟩
  else ⟨x.significand * Nat.pow 5 (-x.exponent).toNat, x.exponent⟩

/-- Grids from `10 ^ 309`, above every finite number, to seventeen digits of the least one. -/
def shortest (x : Binary64) : Digits :=
  let grid (step : Nat) : Option Digits := x.gridPoint (309 - step)
  ((List.range 650).findSome? grid).getD x.exactDigits

end Binary64

end DecoderTables.Decimal
