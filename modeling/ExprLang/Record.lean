import ExprLang.Evaluation
import ExprLang.Json.Reading
import ExprLang.Json.Writing

/-!
# Records as data

Positions, faults and settings travel as JSON.  Positions and settings are read back, from an object with their
fields or from an array of them in order; an object may have other fields as well, but none of the record's own
twice.  All numbers are integers: a line or a column has 32 bits, a limit has 64.
-/

namespace ExprLang
namespace Position

/-- The tree of a position. -/
def toJson (p : Position) : Json :=
  .object [("line", .integer p.line), ("column", .integer p.column)]

/-- A line or a column. -/
def coordinate? (w : Json.Written) : Option Nat := w.natural? (Nat.pow 2 32)

/-- The position that a text denotes.  Both fields are required. -/
def ofJsonText? (s : String) : Option Position := do
  match ← Json.Written.ofText? s with
  | .array [line, column] => return ⟨← coordinate? line, ← coordinate? column⟩
  | .object written =>
    let fields ← Json.Written.keyed? written
    let line ← ← Json.Written.field? "line" fields
    let column ← ← Json.Written.field? "column" fields
    return ⟨← coordinate? line, ← coordinate? column⟩
  | _ => none

end Position

namespace Settings

/-- The tree of settings. -/
def toJson (settings : Settings) : Json :=
  .object [("max_range_length", (settings.maxRangeLength.map fun n => Json.integer n).getD .null)]

/-- A limit, or `null` for none. -/
def limit? : Json.Written → Option (Option Nat)
  | .null => some none
  | w => (w.natural? (Nat.pow 2 64)).map some

/-- The settings that a text denotes.  What is missing is not limited. -/
def ofJsonText? (s : String) : Option Settings := do
  match ← Json.Written.ofText? s with
  | .array [] => return {}
  | .array [limit] => return { maxRangeLength := ← limit? limit }
  | .object written =>
    let fields ← Json.Written.keyed? written
    match ← Json.Written.field? "max_range_length" fields with
    | some limit => return { maxRangeLength := ← limit? limit }
    | none => return {}
  | _ => none

end Settings

namespace Cause

/-- The fields of a cause, apart from its class. -/
def dataFields : Cause → List (String × Json)
  | conversion value source target | dereference value source target =>
    [("value", .string value), ("from", .string source.name), ("to", .string target.name)]
  | evaluation complaint => [("message", .string complaint.message)]
  | index indexable i | indexOutOfBounds indexable i =>
    [("indexable", .string indexable), ("index", .string i)]

end Cause

namespace Fault

/-- The tree of a fault: its class, what the class tells of, and its position. -/
def toJson (f : Fault) : Json :=
  .object (("kind", .string f.cause.className) :: f.cause.dataFields
    ++ [("position", (f.position.map Position.toJson).getD .null)])

end Fault
end ExprLang
