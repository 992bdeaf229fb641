import ExprLang.Number.Integer

/-!
# Runs of integers

A range runs from its first bound to its last and holds both, upwards or downwards.  `inclusive` is that run
and `inclusiveLength` the number of its elements, which is asked for before a long run is built.  The length
is capped at the greatest unsigned 64-bit integer; only the run over all 64-bit integers has one element more
than that.
-/

namespace ExprLang
namespace Run

/-- All integers from `first` to `last`, in the direction from one to the other. -/
def inclusive (first last : Int) : List Int :=
  if first ≤ last then (List.range ((last - first).toNat + 1)).map fun (i : Nat) => first + i
  else (List.range ((first - last).toNat + 1)).map fun (i : Nat) => first - i

/-- The greatest unsigned 64-bit integer. -/
def lengthCap : Nat := Nat.pow 2 64 - 1

/-- The number of integers from `first` to `last`, capped. -/
def inclusiveLength (first last : Int) : Nat := min ((last - first).natAbs + 1) lengthCap

end Run
end ExprLang
