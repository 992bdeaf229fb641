import ExprLang.Decimal.Reading
import ExprLang.Number.Integer
import ExprLang.Value.Reading

/-!
# Conversion between kinds

A value converts to its own kind as it is, and to some of the others:

| from | to |
|---|---|
| boolean | string (`true`, `false`), number (1, 0) |
| string | boolean (exactly `true` or `false`), number (a numeral) |
| number | boolean (whether it is not zero), string (plain notation) |
| array | range (each element converts to a 64-bit integer) |
| null | boolean, number, string, array, map: the empty payload of each |

Every other pair fails, and so does a text or an element that does not fit, with a conversion fault that
shows the value.  The result stands at the position of the value.

`toNumber` and `toText` are the conversions that operators ask for.
-/

namespace ExprLang
namespace Value

/-- The number that a value converts to, if it does. -/
def number? (v : Value) : Option Number :=
  match v.payload with
  | .number x => some x
  | .boolean b => some (.ofInt (if b then 1 else 0))
  | .string s => Number.ofText? s
  | .null => some .zero
  | _ => none

/-- The string that a value converts to, if it does. -/
def string? (v : Value) : Option String :=
  match v.payload with
  | .string s => some s
  | .boolean b => some (if b then "true" else "false")
  | .number x => some x.plainText
  | .null => some ""
  | _ => none

/-- The boolean that a value converts to, if it does. -/
def boolean? (v : Value) : Option Bool :=
  match v.payload with
  | .boolean b => some b
  | .string s => if s = "true" then some true else if s = "false" then some false else none
  | .number x => some !x.isZero
  | .null => some false
  | _ => none

/-- The integers of an array, if all its elements convert to 64-bit integers. -/
def integers? (items : List Value) : Option (List Int) :=
  items.mapM fun item => item.number?.bind Number.integer?

/-- The payload that a value has after conversion, if it converts. -/
def convertPayload? (v : Value) (target : Kind) : Option (Payload Value) :=
  if v.kind = target then some v.payload
  else match target with
    | .boolean => v.boolean?.map .boolean
    | .string => v.string?.map .string
    | .number => v.number?.map .number
    | .array => if v.kind = .null then some (.array []) else none
    | .map => if v.kind = .null then some (.map []) else none
    | .range =>
      match v.payload with
      | .array items => (integers? items).map .range
      | _ => none
    | .null | .undefined => none

/-- The fault of a conversion that there is not. -/
def conversionFault (v : Value) (target : Kind) : Fault :=
  { cause := .conversion v.text v.kind target }

/-- The value as one of another kind, at its own position. -/
def convert (v : Value) (target : Kind) : Outcome Value :=
  match v.convertPayload? target with
  | some payload => .ok ⟨payload, v.position⟩
  | none => .error (v.conversionFault target)

/-- The value as a number, after conversion. -/
def toNumber (v : Value) : Outcome Number :=
  match v.number? with
  | some x => .ok x
  | none => .error (v.conversionFault .number)

/-- The value as a string, after conversion; strings are not quoted. -/
def toText (v : Value) : Outcome String :=
  match v.string? with
  | some s => .ok s
  | none => .error (v.conversionFault .string)

/-- The elements of an array as strings. -/
def textList (v : Value) : Outcome (List String) := do
  (← v.asArray).mapM toText

/-- The elements of an array as strings, in order and each once. -/
def textSet (v : Value) : Outcome (List String) := do
  let texts ← v.textList
  return (Entries.ofList (texts.map fun s => (s, ()))).keys

end Value
end ExprLang
