import ExprLang.Decimal.Reading
import ExprLang.Json.Basic

/-!
# Numerals of data texts

A numeral of a JSON text, taken apart but not yet a number: a sign, digits, the digits behind the point and an
exponent.  `integral` numerals have neither point nor exponent.

## What a numeral denotes

An integral numeral that fits 64 bits, signed if negative and unsigned otherwise, is that integer.  `-0` is not,
since it is not the integer 0.  Every other numeral is a binary64 number, read the quick way: as many digits as
fit an unsigned 64-bit integer are collected, that integer is rounded, and the result is multiplied or divided by
one power of ten, rounded too.  Up to fifteen digits with a power of ten up to 22 this is the nearest number,
and beyond that it may be a neighbour of it.  A numeral that would be infinite denotes nothing.
-/

namespace ExprLang
namespace Json

/-- A numeral. -/
structure Numeral where
  negative : Bool
  whole : List Char
  /-- The digits behind the point; none if there is no point. -/
  fraction : List Char
  /-- The exponent with its sign, if there is one: whether it is negative, and its digits. -/
  exponent : Option (Bool × List Char)
  deriving DecidableEq, Repr

namespace Numeral

/-- Neither a point nor an exponent. -/
def integral (n : Numeral) : Bool := n.fraction.isEmpty && n.exponent.isNone

/-- The natural number below `bound` that the numeral denotes, if it does. -/
def natural? (n : Numeral) (bound : Nat) : Option Nat :=
  let value := digitsValue n.whole
  if n.integral = true ∧ n.negative = false ∧ value < bound then some value else none

/-- The 64-bit integer that the numeral denotes, if it does. -/
def integer? (n : Numeral) : Option Int :=
  let value := digitsValue n.whole
  if n.integral then
    if n.negative then
      if 0 < value ∧ value ≤ Nat.pow 2 63 then some (-value) else none
    else if value < Nat.pow 2 64 then some value else none
  else none

/-- Appends digits to a significand for as long as it fits an unsigned 64-bit integer; gives back the digits
that are left. -/
def collect (significand : Nat) : List Char → Nat × List Char
  | [] => (significand, [])
  | d :: ds =>
    let longer := 10 * significand + digitsValue [d]
    if longer < Nat.pow 2 64 then collect longer ds else (significand, d :: ds)

/-- A power of ten, rounded. -/
def powerOfTen (n : Nat) : Number := .ofDecimal false ⟨1, n⟩

/-- A number divided by a power of ten, in steps that are themselves numbers. -/
def divideByPower (x : Number) (n : Nat) : Number :=
  if n ≤ 308 then x.div (powerOfTen n)
  else if x.isZero then x
  else divideByPower (x.div (powerOfTen 308)) (n - 308)
termination_by n

/-- A number multiplied by a power of ten, if the result is finite. -/
def multiplyByPower? (x : Number) (n : Nat) : Option Number :=
  if n ≤ 308 then
    let product := x.mul (powerOfTen n)
    if product.isFinite then some product else none
  else if x.isZero then some x
  else none

/-- The exponent that is written, as an integer. -/
def writtenExponent (n : Numeral) : Int :=
  match n.exponent with
  | some (negative, ds) => Number.signed negative (digitsValue ds)
  | none => 0

/-- The binary64 number that the numeral denotes, if that is finite. -/
def number? (n : Numeral) : Option Number :=
  let (leading, unread) := collect 0 n.whole
  let (significand, unreadFraction) := collect leading n.fraction
  let exponent : Int :=
    unread.length - (n.fraction.length - unreadFraction.length : Nat) + n.writtenExponent
  let x := Number.ofInt significand
  let scaled :=
    if 0 ≤ exponent then multiplyByPower? x exponent.toNat
    else some (divideByPower x exponent.natAbs)
  scaled.map fun y => if n.negative then y.neg else y

/-- What the numeral denotes. -/
def denoted? (n : Numeral) : Option Json :=
  match n.integer? with
  | some value => some (.integer value)
  | none => n.number?.map .number

end Numeral
end Json
end ExprLang
