import ExprLang.Decimal.Shortest

/-!
# How numbers are written

Two notations, both of the shortest decimal that reads back.

* *Plain*: digits and, if needed, one point.  However large or small, no exponent is written; integers
  have no point.  It is the text of a number wherever the language turns one into a string.
* *Data*: what a JSON text shows.  From `10⁻⁵` up to below `10¹⁶` it is the plain notation with at least
  one digit behind the point, and outside that range one digit before the point and an exponent that
  always has a sign.

They differ in one more decision.  When two shortest decimals are equally close, plain notation takes the
larger and data notation the one whose last digit is even.
-/

namespace ExprLang
namespace Decimal

/-- Digits with a point that stands `places` digits from the right, with zeros filled in. -/
def withPoint (digits : List Char) (places : Nat) : List Char :=
  if places < digits.length then
    digits.take (digits.length - places) ++ '.' :: digits.drop (digits.length - places)
  else '0' :: '.' :: (List.replicate (places - digits.length) '0' ++ digits)

/-- A decimal without an exponent: no point if it is an integer. -/
def positional (d : Decimal) : List Char :=
  if 0 ≤ d.exponent then digitsOf d.digits ++ List.replicate d.exponent.toNat '0'
  else withPoint (digitsOf d.digits) (-d.exponent).toNat

/-- A decimal as one digit before the point, the others behind it, and the exponent `power`. -/
def scientific (d : Decimal) (power : Int) : List Char :=
  let mantissa := match digitsOf d.digits with
    | first :: second :: rest => first :: '.' :: second :: rest
    | short => short
  mantissa ++ 'e' :: (if power < 0 then '-' else '+') :: digitsOf power.natAbs

end Decimal

namespace Number

/-- A minus sign, or nothing. -/
def signChars (negative : Bool) : List Char := if negative then ['-'] else []

/-- The characters of a number in plain notation. -/
def plainChars : Number → List Char
  | .nan => ['N', 'a', 'N']
  | .infinite s => signChars s ++ ['i', 'n', 'f']
  | .finite s m =>
    signChars s ++ (if m.units = 0 then ['0'] else (m.shortest .up).positional)

/-- A number in plain notation. -/
def plainText (x : Number) : String := String.ofList x.plainChars

/-- The characters of a finite number in data notation; others have none, since JSON lacks them. -/
def dataChars? : Number → Option (List Char)
  | .finite s m =>
    let body :=
      if m.units = 0 then ['0', '.', '0']
      else
        let d := m.shortest .even
        let power := d.exponent + (Decimal.digitsOf d.digits).length - 1
        if -5 ≤ power ∧ power ≤ 15 then
          d.positional ++ (if 0 ≤ d.exponent then ['.', '0'] else [])
        else d.scientific power
    some (signChars s ++ body)
  | _ => none

end Number
end ExprLang
