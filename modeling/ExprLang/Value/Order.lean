import ExprLang.Value.Basic

/-!
# The order of values

A total order over all values, used wherever values are sorted or collected without repetition.  Values of
different kinds are ordered as their kinds are.  Within a kind: `false` before `true`; strings by code points;
numbers by `Number.order`, where NaN comes last; arrays and ranges element by element, a beginning before what
it begins; maps as the lists of their entries, key before value.

Positions are not looked at, at any depth.  Values that compare as equal are *equal values*, which is coarser
than being the same: `0` and `-0` are equal.
-/

namespace ExprLang
namespace Value

mutual

/-- The order of two values. -/
def order : Value → Value → Ordering
  | ⟨.boolean a, _⟩, ⟨.boolean b, _⟩ => compare a b
  | ⟨.string a, _⟩, ⟨.string b, _⟩ => compare a b
  | ⟨.number a, _⟩, ⟨.number b, _⟩ => a.order b
  | ⟨.array a, _⟩, ⟨.array b, _⟩ => orderItems a b
  | ⟨.map a, _⟩, ⟨.map b, _⟩ => orderEntries a b
  | ⟨.range a, _⟩, ⟨.range b, _⟩ => compare a b
  | ⟨a, _⟩, ⟨b, _⟩ => compare a.kind.rank b.kind.rank
termination_by structural v => v

/-- The order of two lists of values: the first difference decides, then the length. -/
def orderItems : List Value → List Value → Ordering
  | [], [] => .eq
  | [], _ :: _ => .lt
  | _ :: _, [] => .gt
  | a :: as, b :: bs => (order a b).then (orderItems as bs)
termination_by structural items => items

/-- The order of two lists of entries; of two entries, the keys are compared first. -/
def orderEntries : List (String × Value) → List (String × Value) → Ordering
  | [], [] => .eq
  | [], _ :: _ => .lt
  | _ :: _, [] => .gt
  | (j, a) :: as, (k, b) :: bs => ((compare j k).then (order a b)).then (orderEntries as bs)
termination_by structural entries => entries

end

/-- Whether two values are equal: neither comes before the other. -/
def equal (v w : Value) : Bool := v.order w == .eq

/-- Whether a value comes no later than another. -/
def atMost (v w : Value) : Bool := (v.order w).isLE

/-- The values in order; equal ones stay in the order in which they came. -/
def sort (values : List Value) : List Value := values.mergeSort atMost

/-- The values of a list, without those equal to an earlier one. -/
def distinct (values : List Value) : List Value :=
  values.foldl (fun kept v => if kept.any (equal v) then kept else kept ++ [v]) []

end Value
end ExprLang
