import ExprLang.Value.Conversion
import ExprLang.Value.Order
import ExprLang.Value.Range

/-!
# What the operators do

The meaning of each operator on values.  Operands that do not fit are complaints that name the operator and
the kinds of its operands; of two operands that do not convert, it makes no difference which one is at fault.

* **Truth.** Zero, what is empty, null and undefined count as false, everything else as true; NaN, not being
  zero, is true.
* **Arithmetic** is on numbers after conversion.  `+` first looks at both kinds: arrays are joined, maps are
  merged with the right one winning, and a string on either side makes both sides strings.
* **Comparison** is `compare`, and `order` is not: comparison converts, so that `2` and `"2"` compare as equal,
  and it can fail.
* **Ranges** have integers as bounds, truncated toward zero and clamped to 64 bits.
-/

namespace ExprLang
namespace Value

/-! ## Truth -/

/-- Whether a value counts as true. -/
def truthy (v : Value) : Bool :=
  match v.payload with
  | .boolean b => b
  | .number x => !x.isZero
  | .string s => s != ""
  | .array items => !items.isEmpty
  | .map entries => !entries.isEmpty
  | .range integers => !integers.isEmpty
  | .null | .undefined => false

/-- `!v`. -/
def not (v : Value) : Value := boolean (!v.truthy)

/-- `v && w`, both having been evaluated. -/
def and (v w : Value) : Value := boolean (v.truthy && w.truthy)

/-- `v || w`, both having been evaluated. -/
def or (v w : Value) : Value := boolean (v.truthy || w.truthy)

/-! ## Arithmetic -/

/-- `+v`: the value as a number. -/
def plus (v : Value) : Outcome Value := do
  let x ← v.toNumber.reword (.unary .plus v.kind)
  return number x

/-- `-v`: the opposite of the value as a number. -/
def minus (v : Value) : Outcome Value := do
  let x ← v.toNumber.reword (.unary .minus v.kind)
  return number x.neg

/-- The complaint of a binary operator about its operands. -/
def mismatch (op : BinaryOp) (v w : Value) : Complaint := .binary op v.kind w.kind

/-- Both values as numbers; the complaint is that of the operator. -/
def bothNumbers (op : BinaryOp) (v w : Value) : Outcome (Number × Number) := do
  let x ← v.toNumber.reword (mismatch op v w)
  let y ← w.toNumber.reword (mismatch op v w)
  return (x, y)

/-- An operator on numbers as one on values. -/
def arithmetic (op : BinaryOp) (f : Number → Number → Number) (v w : Value) : Outcome Value := do
  let (x, y) ← bothNumbers op v w
  return number (f x y)

/-- Both values as strings, joined. -/
def concatenate (v w : Value) : Outcome Value := do
  let s ← v.toText.reword (mismatch .add v w)
  let t ← w.toText.reword (mismatch .add v w)
  return string (s ++ t)

/-- `v + w`: joins arrays, merges maps, concatenates if one side is a string, and adds otherwise. -/
def add (v w : Value) : Outcome Value :=
  match v.payload, w.payload with
  | .array a, .array b => .ok (array (a ++ b))
  | .map a, .map b => .ok (map (Entries.merge a b))
  | .string _, _ | _, .string _ => concatenate v w
  | _, _ => arithmetic .add Number.add v w

/-- `v - w`. -/
def sub : Value → Value → Outcome Value := arithmetic .sub Number.sub

/-- `v * w`. -/
def mul : Value → Value → Outcome Value := arithmetic .mul Number.mul

/-- `v / w`; dividing by zero gives an infinity or NaN. -/
def div : Value → Value → Outcome Value := arithmetic .div Number.div

/-- `v % w`. -/
def mod : Value → Value → Outcome Value := arithmetic .mod Number.rem

/-! ## Comparison -/

/-- The comparison behind `<`, `<=`, `==`, `!=`, `>=` and `>`.  The first rule that applies decides:

1. two booleans, arrays, maps, ranges, nulls or undefined values are compared as they are ordered;
2. values that both convert to numbers are compared as those numbers;
3. values that both convert to strings are compared as those strings.

Other values cannot be compared. -/
def compare (v w : Value) : Outcome Ordering :=
  match v.payload, w.payload with
  | .boolean _, .boolean _ | .array _, .array _ | .map _, .map _ | .range _, .range _
  | .null, .null | .undefined, .undefined => .ok (v.order w)
  | _, _ =>
    match v.number?, w.number? with
    | some x, some y => .ok (x.order y)
    | _, _ =>
      match v.string?, w.string? with
      | some s, some t => .ok (Ord.compare s t)
      | _, _ => .error (.complain (.incomparable v.text v.kind w.text w.kind))

/-! ## Ranges -/

/-- The integer bounds of `v..w`. -/
def rangeBounds (v w : Value) : Outcome (Int × Int) := do
  let (x, y) ← bothNumbers .range v w
  return (x.truncated, y.truncated)

/-- `v..w`, however long. -/
def rangeTo (v w : Value) : Outcome Value := do
  let (first, last) ← v.rangeBounds w
  return range (Run.inclusive first last)

end Value
end ExprLang
