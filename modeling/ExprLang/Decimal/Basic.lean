import ExprLang.Number.Basic

/-!
# Decimals

A decimal is a natural number with a power of ten: what a numeral says before anything is rounded.
Reading a numeral gives a decimal, writing a number chooses one, and `Number.ofDecimal` is the only
bridge from decimals to numbers.  Two decimals of one value round to one number, whatever their
digits, because rounding sees only the quotient `ratio`.
-/

namespace ExprLang

/-- The decimal `digits · 10 ^ exponent`. -/
structure Decimal where
  digits : Nat
  exponent : Int
  deriving DecidableEq, Repr

namespace Decimal

/-- The value as a quotient of naturals, counted in the units of binary64 magnitudes. -/
def ratio (d : Decimal) : Nat × Nat :=
  (d.digits * Nat.pow 10 d.exponent.toNat * Magnitude.one, Nat.pow 10 (-d.exponent).toNat)

/-- The magnitude nearest to the decimal, in units; it may be too large to be finite. -/
def nearestUnits (d : Decimal) : Nat := Magnitude.nearest d.ratio.1 d.ratio.2

/-- The decimal digits of a natural number, most significant first. -/
def digitsOf (n : Nat) : List Char := Nat.toDigits 10 n

/-- The same decimal without zeros at the end of its digits. -/
def trim (d : Decimal) : Decimal :=
  let zeros := ((digitsOf d.digits).reverse.takeWhile (· == '0')).length
  ⟨d.digits / Nat.pow 10 zeros, d.exponent + zeros⟩

end Decimal

namespace Number

/-- The number nearest to a signed decimal. -/
def ofDecimal (negative : Bool) (d : Decimal) : Number :=
  ofRatio negative d.ratio.1 d.ratio.2

end Number
end ExprLang
