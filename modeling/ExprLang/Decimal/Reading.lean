import ExprLang.Decimal.Basic

/-!
# Reading a number from a text

The whole text must be a numeral: an optional sign, then

* one of the words `inf`, `infinity` and `nan`, in letters of either case, or
* digits with an optional point, at least one digit on one side of it, and an optional exponent `e` or `E`
  with an optional sign and at least one digit.

Blanks, separators and other bases are refused.  The value is the number nearest to the decimal, so a
numeral that is too large reads as an infinity and one that is too small as a zero with its sign.

## Far exponents

A numeral may name an exponent with more digits than could ever be computed with.  `settleExponent` brings
it near: once it lies beyond the count of digits written by 400, the value is an infinity or zero whatever
the exponent is, as no number reaches `10³⁰⁹` or lies below `10⁻³²⁴` without being zero.
-/

namespace ExprLang

/-- Splits off the decimal digits at the start of a text. -/
def spanDigits (cs : List Char) : List Char × List Char :=
  (cs.takeWhile Char.isDigit, cs.dropWhile Char.isDigit)

/-- The natural number that a list of digits denotes. -/
def digitsValue (ds : List Char) : Nat := Nat.ofDigitChars 10 ds 0

/-- Splits off a sign; says whether it is a minus. -/
def spanSign : List Char → Bool × List Char
  | '-' :: cs => (true, cs)
  | '+' :: cs => (false, cs)
  | cs => (false, cs)

namespace Number

/-- Splits off the fraction digits behind a point, if there is one. -/
def spanFraction : List Char → List Char × List Char
  | '.' :: cs => spanDigits cs
  | cs => ([], cs)

/-- The exponent that a whole text writes: nothing is exponent zero. -/
def readExponent? : List Char → Option Int
  | [] => some 0
  | c :: cs =>
    if c = 'e' ∨ c = 'E' then
      let (negative, ds) := spanSign cs
      if ds ≠ [] ∧ ds.all Char.isDigit then some (signed negative (digitsValue ds)) else none
    else none

/-- The exponent, brought within 400 of the number of digits. -/
def settleExponent (digitCount : Nat) (exponent : Int) : Int :=
  max (-(digitCount + 400)) (min exponent (digitCount + 400))

/-- The decimal that a text without a sign denotes. -/
def readDecimal? (cs : List Char) : Option Decimal :=
  let (whole, rest) := spanDigits cs
  let (fraction, rest) := spanFraction rest
  if whole = [] ∧ fraction = [] then none
  else do
    let exponent ← readExponent? rest
    let digits := whole ++ fraction
    return ⟨digitsValue digits, settleExponent digits.length exponent - fraction.length⟩

/-- The number that a text without a sign denotes when it is one of the words. -/
def readWord? (negative : Bool) (cs : List Char) : Option Number :=
  let word := cs.map Char.toLower
  if word = ['i', 'n', 'f'] ∨ word = ['i', 'n', 'f', 'i', 'n', 'i', 't', 'y'] then
    some (.infinite negative)
  else if word = ['n', 'a', 'n'] then some .nan
  else none

/-- The number that a list of characters denotes, if it is a numeral. -/
def ofChars? (cs : List Char) : Option Number :=
  let (negative, rest) := spanSign cs
  match readWord? negative rest with
  | some x => some x
  | none => (readDecimal? rest).map (ofDecimal negative)

/-- The number that a text denotes, if it is a numeral. -/
def ofText? (s : String) : Option Number := ofChars? s.toList

end Number
end ExprLang
