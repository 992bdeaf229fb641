import ExprLang.Json.Writing

/-!
# Values as data

A value becomes a tree of data by forgetting positions and what data cannot say: a range becomes an array of
integers, and null, undefined, NaN and the infinities all become `null`.  A tree becomes a value without loss,
except that a large integer becomes the number nearest to it and a repeated key keeps its last field.
-/

namespace ExprLang
namespace Value

mutual

/-- The tree of a value. -/
def toJson : Value → Json
  | ⟨.boolean b, _⟩ => .boolean b
  | ⟨.string s, _⟩ => .string s
  | ⟨.number x, _⟩ => if x.isFinite then .number x else .null
  | ⟨.array items, _⟩ => .array (itemsToJson items)
  | ⟨.map entries, _⟩ => .object (entriesToJson entries)
  | ⟨.range integers, _⟩ => .array (integers.map .integer)
  | ⟨.null, _⟩ => .null
  | ⟨.undefined, _⟩ => .null

/-- The trees of several values. -/
def itemsToJson : List Value → List Json
  | [] => []
  | v :: rest => toJson v :: itemsToJson rest

/-- The fields of several entries. -/
def entriesToJson : List (String × Value) → List (String × Json)
  | [] => []
  | (key, v) :: rest => (key, toJson v) :: entriesToJson rest

end

mutual

/-- The value of a tree. -/
def ofJson : Json → Value
  | .null => null
  | .boolean b => boolean b
  | .integer n => integer n
  | .number x => number x
  | .string s => string s
  | .array items => array (itemsOfJson items)
  | .object fields => map (Entries.ofList (entriesOfJson fields))

/-- The values of several trees. -/
def itemsOfJson : List Json → List Value
  | [] => []
  | j :: rest => ofJson j :: itemsOfJson rest

/-- The bindings of several fields. -/
def entriesOfJson : List (String × Json) → List (String × Value)
  | [] => []
  | (key, j) :: rest => (key, ofJson j) :: entriesOfJson rest

end

/-- The JSON text of a value. -/
def jsonText (v : Value) : String := v.toJson.text

end Value
end ExprLang
