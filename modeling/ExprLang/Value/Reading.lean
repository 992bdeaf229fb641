import ExprLang.Value.Rendering

/-!
# Reading values

Host programs read a value as the payload of a kind that they expect.  A value of another kind is refused
with a dereference fault; only null is read as the empty payload of its kind, where there is one: `false`,
the empty string, 0, the empty array, the empty map.  A range is never read from anything but a range.

Also here: the length of what has elements, and the keys of a map.
-/

namespace ExprLang
namespace Value

/-- The fault of reading a value as one of another kind. -/
def dereferenceFault (v : Value) (target : Kind) : Fault :=
  { cause := .dereference v.text v.kind target }

/-- The value as a boolean; null is `false`. -/
def asBoolean (v : Value) : Outcome Bool :=
  match v.payload with
  | .boolean b => .ok b
  | .null => .ok false
  | _ => .error (v.dereferenceFault .boolean)

/-- The value as a string; null is empty. -/
def asString (v : Value) : Outcome String :=
  match v.payload with
  | .string s => .ok s
  | .null => .ok ""
  | _ => .error (v.dereferenceFault .string)

/-- The value as a number; null is 0. -/
def asNumber (v : Value) : Outcome Number :=
  match v.payload with
  | .number x => .ok x
  | .null => .ok .zero
  | _ => .error (v.dereferenceFault .number)

/-- The value as an array; null is empty. -/
def asArray (v : Value) : Outcome (List Value) :=
  match v.payload with
  | .array items => .ok items
  | .null => .ok []
  | _ => .error (v.dereferenceFault .array)

/-- The value as a map; null is empty. -/
def asMap (v : Value) : Outcome (Entries Value) :=
  match v.payload with
  | .map entries => .ok entries
  | .null => .ok []
  | _ => .error (v.dereferenceFault .map)

/-- The value as a range. -/
def asRange (v : Value) : Outcome (List Int) :=
  match v.payload with
  | .range integers => .ok integers
  | _ => .error (v.dereferenceFault .range)

/-- How many characters a string has, or elements an array, a map or a range; null has none.  Booleans,
numbers and the undefined value have no length. -/
def length (v : Value) : Outcome Nat :=
  match v.payload with
  | .string s => .ok s.toList.length
  | .array items => .ok items.length
  | .map entries => .ok entries.length
  | .range integers => .ok integers.length
  | .null => .ok 0
  | .boolean _ | .number _ | .undefined => .error (.complain (.noLength v.text v.kind))

/-- The keys of a map, in order. -/
def keys (v : Value) : Outcome (List String) := v.asMap.map Entries.keys

end Value
end ExprLang
