import ExprLang.Value.Operation

/-!
# Indexing

`v[i]`.  Arrays, ranges and strings are *ordered*: their index is an integer, counted from the end when it is
negative, or a range or an array of such, which gathers the selected elements in its own order.  Maps are
indexed by a key, or by an array of keys, which selects a part of the map.

## Two ways to fail

An index of the wrong kind, a number that is not finite, a key that is missing and a value that has no
elements are *index* faults.  An integer outside the value is an *index out of bounds* fault.  Both show the
whole value and the one index at fault, which for an array of indices is the element.

A single index and the elements of a gathering go through the same functions, `resolve` and `place?`, so that
gathering is single indexing, repeated.  A place is an element of `Fin length`, hence reading it cannot fail.
-/

namespace ExprLang
namespace Value

/-- The fault of an index that the value cannot be asked for. -/
def indexFault (v i : Value) : Fault := { cause := .index v.text i.text }

/-- The place that an integer index means among `length` elements; negative ones count from the end. -/
def place? (index : Int) (length : Nat) : Option (Fin length) :=
  let fromStart := if index < 0 then index + length else index
  if h : 0 ≤ fromStart ∧ fromStart < length then some ⟨fromStart.toNat, by omega⟩ else none

/-- The place that a number means; `i` is the index to be shown in a fault. -/
def resolve (v : Value) (x : Number) (i : Value) (length : Nat) : Outcome (Fin length) :=
  if x.isFinite then
    match place? x.truncated length with
    | some place => .ok place
    | none => .error { cause := .indexOutOfBounds v.text i.text }
  else .error (v.indexFault i)

/-- The place that an element of an array of indices means. -/
def resolveItem (v : Value) (length : Nat) (i : Value) : Outcome (Fin length) :=
  match i.payload with
  | .number x => v.resolve x i length
  | _ => .error (v.indexFault i)

/-- The place that an element of a range of indices means. -/
def resolveInteger (v : Value) (length : Nat) (index : Int) : Outcome (Fin length) :=
  match place? index length with
  | some place => .ok place
  | none => .error { cause := .indexOutOfBounds v.text (String.ofList (integerChars index)) }

/-- What an index selects from an ordered value of a given length. -/
inductive Selection (length : Nat) where
  | single (place : Fin length)
  | many (places : List (Fin length))
  deriving DecidableEq, Repr

/-- What an index selects from an ordered value of a given length. -/
def select (v i : Value) (length : Nat) : Outcome (Selection length) :=
  match i.payload with
  | .number x => (v.resolve x i length).map .single
  | .range integers => (integers.mapM (v.resolveInteger length)).map .many
  | .array items => (items.mapM (v.resolveItem length)).map .many
  | _ => .error (v.indexFault i)

/-- Reads a selection from the elements of an ordered value: `one` makes a value of a single element and
`several` of those gathered. -/
def Selection.read {α : Type} (elements : List α) (one : α → Value) (several : List α → Value) :
    Selection elements.length → Value
  | .single place => one (elements.get place)
  | .many places => several (places.map elements.get)

/-- The key that an element of an array of keys means; null means the empty key. -/
def key? (i : Value) : Option String :=
  match i.payload with
  | .string s => some s
  | .null => some ""
  | _ => none

/-- The entry of a map for an element of an array of keys. -/
def entryFor (v : Value) (entries : Entries Value) (i : Value) : Outcome (String × Value) :=
  match i.key?.bind fun key => (Entries.lookup key entries).map fun found => (key, found) with
  | some entry => .ok entry
  | none => .error (v.indexFault i)

/-- `v[i]`. -/
def index (v i : Value) : Outcome Value :=
  match v.payload with
  | .array items =>
    (v.select i items.length).map (Selection.read items id array)
  | .range integers =>
    (v.select i integers.length).map (Selection.read integers integer range)
  | .string s =>
    (v.select i s.toList.length).map
      (Selection.read s.toList (fun c => string (String.ofList [c]))
        (fun cs => string (String.ofList cs)))
  | .map entries =>
    match i.payload with
    | .string key =>
      match Entries.lookup key entries with
      | some found => .ok found
      | none => .error (v.indexFault i)
    | .array keys => do
      let chosen ← keys.mapM (v.entryFor entries)
      return map (Entries.ofList chosen)
    | _ => .error (v.indexFault i)
  | _ => .error (v.indexFault i)

/-- `v[n]` for an integer; it is the number nearest to the integer that indexes. -/
def element (v : Value) (n : Int) : Outcome Value := v.index (integer n)

/-- `v[key]` for a string. -/
def get (v : Value) (key : String) : Outcome Value := v.index (string key)

/-! ## Asking beforehand -/

/-- Whether an outcome is a result. -/
def succeeds {α : Type} : Outcome α → Bool
  | .ok _ => true
  | .error _ => false

/-- Whether `v[i]` has a result. -/
def contains (v i : Value) : Bool :=
  match v.payload with
  | .array _ | .range _ | .string _ =>
    match v.length with
    | .ok length => succeeds (v.select i length)
    | .error _ => false
  | .map entries =>
    match i.payload with
    | .string key => Entries.contains key entries
    | .array keys => keys.all fun k => k.key?.any fun key => Entries.contains key entries
    | _ => false
  | _ => false

/-- Whether `v[n]` has a result. -/
def containsElement (v : Value) (n : Int) : Bool := v.contains (integer n)

/-- Whether the value is a map with the given key. -/
def containsKey (v : Value) (key : String) : Bool := v.contains (string key)

end Value
end ExprLang
