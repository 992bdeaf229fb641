import ExprLang.Number.Rounding

/-!
# Numbers

The numbers of the language are those of binary64: finite ones, two infinities and one NaN.  A finite
number is a sign and a magnitude, so `-0` is apart from `0`; both have the same place in the order.

## Why the operations are short

A magnitude is a count of units (`Number.Rounding`), hence a finite number is an integer with a sign
kept for zero.  Each operation says what happens to NaN, the infinities and zero, and for the remaining
case names one exact quotient of integers for `ofRatio` to round.  No operation has an algorithm of its
own, and two operations that form the same quotient give the same number.

## The order

`level` sends every number to an integer: a finite number to its signed count, an infinity to the first
count that is not finite, NaN to one more.  `order` compares levels.  So it is total, NaN equals NaN and
stands above everything, and `-0` equals `0`; each of its laws is a law of the integers.
-/

namespace ExprLang

/-- A binary64 number. -/
inductive Number where
  | nan
  | infinite (negative : Bool)
  | finite (negative : Bool) (magnitude : Magnitude)
  deriving DecidableEq, Repr

namespace Number
open Magnitude (one)

/-- A natural number with a sign. -/
def signed (negative : Bool) (n : Nat) : Int := if negative then -n else n

@[simp] theorem signed_true (n : Nat) : signed true n = -n := rfl

@[simp] theorem signed_false (n : Nat) : signed false n = n := rfl

@[simp] theorem signed_zero (negative : Bool) : signed negative 0 = 0 := by
  cases negative <;> rfl

/-- Zero, with either sign. -/
def signedZero (negative : Bool) : Number := .finite negative .zero

/-- The number `0`. -/
def zero : Number := signedZero false

instance : Inhabited Number := ⟨zero⟩

/-- The number nearest to `num / den` units, an infinity if that is too large. -/
def ofRatio (negative : Bool) (num den : Nat) : Number :=
  match Magnitude.ofRatio? num den with
  | some m => .finite negative m
  | none => .infinite negative

/-- The number nearest to an integer. -/
def ofInt (n : Int) : Number := ofRatio (n < 0) (n.natAbs * one) 1

def isFinite : Number → Bool
  | .finite .. => true
  | _ => false

/-- Whether the number is `0` or `-0`. -/
def isZero : Number → Bool
  | .finite _ m => m.units == 0
  | _ => false

/-! ## Order -/

/-- The place of a number in the order, as an integer. -/
def level : Number → Int
  | .nan => Magnitude.bound + 1
  | .infinite negative => signed negative Magnitude.bound
  | .finite negative m => signed negative m.units

@[simp] theorem level_nan : level .nan = Magnitude.bound + 1 := rfl

@[simp] theorem level_infinite (s : Bool) : level (.infinite s) = signed s Magnitude.bound := rfl

@[simp] theorem level_finite (s : Bool) (m : Magnitude) : level (.finite s m) = signed s m.units := rfl

/-- The order of the numbers, NaN last. -/
def order (x y : Number) : Ordering := compare x.level y.level

/-! ## Arithmetic -/

/-- The opposite number; NaN has none and stays. -/
def neg : Number → Number
  | .nan => .nan
  | .infinite s => .infinite (!s)
  | .finite s m => .finite (!s) m

/-- The number nearest to a whole count of units; `zeroNegative` is the sign that zero gets. -/
def ofUnits (zeroNegative : Bool) (count : Int) : Number :=
  if count = 0 then signedZero zeroNegative else ofRatio (count < 0) count.natAbs 1

/-- The sum.  Opposite infinities have none; opposite finite numbers, and zeros unless both are
negative, have the sum `0`. -/
def add : Number → Number → Number
  | .nan, _ => .nan
  | _, .nan => .nan
  | .infinite s, .infinite t => if s = t then .infinite s else .nan
  | .infinite s, .finite .. => .infinite s
  | .finite .., .infinite t => .infinite t
  | .finite s a, .finite t b => ofUnits (s && t) (signed s a.units + signed t b.units)

/-- The difference is the sum with the opposite number. -/
def sub (x y : Number) : Number := add x y.neg

/-- The product.  An infinity times zero has none; the sign is negative when the signs differ. -/
def mul : Number → Number → Number
  | .nan, _ => .nan
  | _, .nan => .nan
  | .infinite s, .infinite t => .infinite (s != t)
  | .infinite s, .finite t b => if b.units = 0 then .nan else .infinite (s != t)
  | .finite s a, .infinite t => if a.units = 0 then .nan else .infinite (s != t)
  | .finite s a, .finite t b => ofRatio (s != t) (a.units * b.units) one

/-- The quotient.  Dividing by zero gives an infinity, but zero by zero and infinity by infinity have
no quotient. -/
def div : Number → Number → Number
  | .nan, _ => .nan
  | _, .nan => .nan
  | .infinite _, .infinite _ => .nan
  | .infinite s, .finite t _ => .infinite (s != t)
  | .finite s _, .infinite t => signedZero (s != t)
  | .finite s a, .finite t b =>
    if b.units = 0 then
      if a.units = 0 then .nan else .infinite (s != t)
    else ofRatio (s != t) (a.units * one) b.units

/-- The remainder of the division truncated toward zero, with the sign of the dividend. -/
def rem : Number → Number → Number
  | .nan, _ => .nan
  | _, .nan => .nan
  | .infinite _, _ => .nan
  | .finite s a, .infinite _ => .finite s a
  | .finite s a, .finite _ b => if b.units = 0 then .nan else ofRatio s (a.units % b.units) 1

end Number
end ExprLang
