import ExprLang.Decimal.Basic

/-!
# The shortest decimal of a number

Of all decimals that round to a given magnitude, `shortest` finds one with the fewest digits, and among
those the one closest to the magnitude.

## The search

A magnitude with `k` digits before the point (negative `k` counts the zeros behind it) is looked for on
ever finer grids: multiples of `10ᵏ⁻¹`, of `10ᵏ⁻²` and so on, that is, with one digit, with two, and so
on.  On each grid only the two neighbours of the magnitude can matter.  Whether a neighbour *reads back*
is asked of the rounding itself (`Decimal.nearestUnits`), not of an interval worked out beforehand.  The
first grid with a neighbour that reads back decides.

Two neighbours may be equally close.  Formats differ on which one they take, so that is a parameter.

Seventeen digits suffice for every number, but the search does not rely on it: failing all grids it
answers with the exact value, which every binary number has as a decimal.
-/

namespace ExprLang

/-- Which of two equally close decimals is taken. -/
inductive Tie where
  | up
  | even
  deriving DecidableEq, Repr

namespace Magnitude

/-- The least `k` with the magnitude below `10ᵏ`, for a magnitude other than zero. -/
def decimalPoint (m : Magnitude) : Int :=
  if one ≤ m.units then (Decimal.digitsOf (m.units / one)).length
  else 1 - ((Decimal.digitsOf ((one - 1) / m.units)).length : Int)

/-- The greatest multiple of `10 ^ exponent` that is at most the magnitude. -/
def floorOn (m : Magnitude) (exponent : Int) : Decimal :=
  ⟨m.units * Nat.pow 10 (-exponent).toNat / (one * Nat.pow 10 exponent.toNat), exponent⟩

/-- Whether a decimal rounds to the magnitude. -/
def readsBack (m : Magnitude) (d : Decimal) : Bool := d.nearestUnits == m.units

/-- Of two successive multiples of a power of ten around the magnitude, the closer one. -/
def closer (m : Magnitude) (tie : Tie) (lower upper : Decimal) : Decimal :=
  -- twice the magnitude against the sum of the two, both over one denominator
  let twice := 2 * m.units * Nat.pow 10 (-lower.exponent).toNat
  let sum := (lower.digits + upper.digits) * one * Nat.pow 10 lower.exponent.toNat
  if twice < sum then lower
  else if sum < twice then upper
  else match tie with
    | .up => upper
    | .even => if lower.digits % 2 = 0 then lower else upper

/-- The decimal with `count` digits that reads back and is closest to the magnitude, if one reads
back. -/
def withDigits? (m : Magnitude) (tie : Tie) (count : Nat) : Option Decimal :=
  let lower := m.floorOn (m.decimalPoint - count)
  let upper := { lower with digits := lower.digits + 1 }
  if m.readsBack lower then
    if m.readsBack upper then some (m.closer tie lower upper) else some lower
  else if m.readsBack upper then some upper else none

/-- The magnitude itself as a decimal: dividing by a power of two is multiplying by that power of five
and moving the point. -/
def exactDecimal (m : Magnitude) : Decimal :=
  ⟨m.units * Nat.pow 5 fractionDigits, -fractionDigits⟩

/-- The decimal with the fewest digits that rounds to the magnitude, closest to it among those. -/
def shortest (m : Magnitude) (tie : Tie) : Decimal :=
  (((List.range' 1 17).findSome? (m.withDigits? tie)).getD m.exactDecimal).trim

end Magnitude
end ExprLang
