import ExprLang.Entries
import ExprLang.Fault
import ExprLang.Number.Basic

/-!
# Values

A value is a payload of one of eight kinds and the position it was produced at.  Values are data: every
operation builds a new one.

The payload is parametrised by what arrays and maps hold, so that the inductive type is tied in one place,
in `Value`.  A map is a list of entries that the library keeps sorted by key (`Entries`); a range is the
list of its integers, in the order in which it runs.

## Positions are metadata

A position never decides anything.  Operations that only select (indexing, concatenation, conversion) keep
the positions of what they select; operations that compute give results at the unknown position, and
evaluation then sets that of the node.
-/

namespace ExprLang

/-- The contents of a value whose elements are of type `α`. -/
inductive Payload (α : Type) where
  | boolean (b : Bool)
  | string (s : String)
  | number (x : Number)
  | array (items : List α)
  | map (entries : List (String × α))
  | range (integers : List Int)
  | null
  | undefined

/-- A dynamically typed value. -/
structure Value where
  payload : Payload Value
  position : Position := .unknown

/-- The kind of a payload. -/
def Payload.kind {α : Type} : Payload α → Kind
  | .boolean _ => .boolean
  | .string _ => .string
  | .number _ => .number
  | .array _ => .array
  | .map _ => .map
  | .range _ => .range
  | .null => .null
  | .undefined => .undefined

namespace Value

instance : Inhabited Value := ⟨{ payload := .undefined }⟩

@[ext] theorem ext' {v w : Value} (hp : v.payload = w.payload) (hq : v.position = w.position) :
    v = w := by
  cases v
  cases w
  cases hp
  cases hq
  rfl

/-! ## Values that no text was read for -/

def boolean (b : Bool) : Value := { payload := .boolean b }

def string (s : String) : Value := { payload := .string s }

def number (x : Number) : Value := { payload := .number x }

def array (items : List Value) : Value := { payload := .array items }

def map (entries : Entries Value) : Value := { payload := .map entries }

def range (integers : List Int) : Value := { payload := .range integers }

def null : Value := { payload := .null }

def undefined : Value := { payload := .undefined }

/-- An integer as a value: the number nearest to it. -/
def integer (n : Int) : Value := number (.ofInt n)

/-! ## Kind and position -/

/-- The kind of a value. -/
def kind (v : Value) : Kind := v.payload.kind

/-- The same value at another position. -/
def withPosition (v : Value) (p : Position) : Value := { v with position := p }

/-- Whether the value stands for nothing, explicitly or not. -/
def isNull (v : Value) : Bool := v.kind == .null || v.kind == .undefined

def isUndefined (v : Value) : Bool := v.kind == .undefined

/-! ## Induction -/

/-- What holds of every value whose elements all have it holds of every value. -/
theorem induction {motive : Value → Prop}
    (boolean : ∀ b p, motive ⟨.boolean b, p⟩)
    (string : ∀ s p, motive ⟨.string s, p⟩)
    (number : ∀ x p, motive ⟨.number x, p⟩)
    (array : ∀ items p, (∀ v ∈ items, motive v) → motive ⟨.array items, p⟩)
    (map : ∀ entries p, (∀ e ∈ entries, motive e.2) → motive ⟨.map entries, p⟩)
    (range : ∀ integers p, motive ⟨.range integers, p⟩)
    (null : ∀ p, motive ⟨.null, p⟩)
    (undefined : ∀ p, motive ⟨.undefined, p⟩)
    (v : Value) : motive v := by
  refine Value.rec (motive_1 := motive) (motive_2 := fun payload => ∀ p, motive ⟨payload, p⟩)
    (motive_3 := fun items => ∀ v ∈ items, motive v)
    (motive_4 := fun entries => ∀ e ∈ entries, motive e.2) (motive_5 := fun e => motive e.2)
    (fun _ p h => h p) boolean string number (fun items h p => array items p h)
    (fun entries h p => map entries p h) range null undefined ?_ ?_ ?_ ?_ ?_ v
  · exact fun v hv => absurd hv List.not_mem_nil
  · intro head tail hhead htail v hv
    rcases List.mem_cons.1 hv with rfl | h
    · exact hhead
    · exact htail v h
  · exact fun e he => absurd he List.not_mem_nil
  · intro head tail hhead htail e he
    rcases List.mem_cons.1 he with rfl | h
    · exact hhead
    · exact htail e h
  · exact fun _ _ h => h

end Value
end ExprLang
