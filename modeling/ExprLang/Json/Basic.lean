import ExprLang.Number.Basic

/-!
# Data trees

The trees that JSON texts denote.  Integers are kept apart from other numbers, since a reader of 64-bit
integers must get each of them exactly, while everything else is a binary64 number.  The fields of an object
are in the order of the text and may repeat a key; whoever reads an object decides what a repetition means.
-/

namespace ExprLang

/-- What a JSON text denotes. -/
inductive Json where
  | null
  | boolean (b : Bool)
  | integer (n : Int)
  | number (x : Number)
  | string (s : String)
  | array (items : List Json)
  | object (fields : List (String × Json))

instance : Inhabited Json := ⟨.null⟩

end ExprLang
