import ExprLang.Number.Basic

/-!
# Numbers as words of bits

The interchange form of a binary64 number: a sign bit, eleven bits of exponent and 52 bits of fraction.
The exponent field says how far a count of units was shifted: with field `0` the fraction is the count
itself, and with field `e + 1` the count is `(2⁵² + fraction) · 2ᵉ`.  Since an unshifted count of 53
digits has the field `1`, both are one formula on the way back: `count / spacing` with `e · 2⁵²` added.
-/

namespace ExprLang
namespace Number

/-- The count of units with exponent field `field` and the given fraction, for a format whose fraction
has `width` bits. -/
def unitsOfFields (width field fraction : Nat) : Nat :=
  if field = 0 then fraction else (Nat.pow 2 width + fraction) * Nat.pow 2 (field - 1)

/-- The number with the given 64 bits; every NaN pattern is the one NaN. -/
def ofBits (bits : Nat) : Number :=
  let negative := bits / Nat.pow 2 63 % 2 = 1
  let field := bits / Nat.pow 2 52 % Nat.pow 2 11
  let fraction := bits % Nat.pow 2 52
  if field = 2047 then
    if fraction = 0 then .infinite negative else .nan
  else ofRatio negative (unitsOfFields 52 field fraction) 1

/-- The number with the given 32 bits of the single format: its least positive number is `2⁻¹⁴⁹`,
that is, `2⁹²⁵` units. -/
def ofSingleBits (bits : Nat) : Number :=
  let negative := bits / Nat.pow 2 31 % 2 = 1
  let field := bits / Nat.pow 2 23 % Nat.pow 2 8
  let fraction := bits % Nat.pow 2 23
  if field = 255 then
    if fraction = 0 then .infinite negative else .nan
  else ofRatio negative (unitsOfFields 23 field fraction * Nat.pow 2 925) 1

/-- The 64 bits of a number. -/
def toBits : Number → Nat
  | .nan => 2047 * Nat.pow 2 52 + Nat.pow 2 51
  | .infinite s => (if s then Nat.pow 2 63 else 0) + 2047 * Nat.pow 2 52
  | .finite s m =>
    (if s then Nat.pow 2 63 else 0) + (m.units.log2 - 52) * Nat.pow 2 52 +
      m.units / Magnitude.spacing m.units

end Number
end ExprLang
