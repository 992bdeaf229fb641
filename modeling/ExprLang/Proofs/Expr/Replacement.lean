import ExprLang.Proofs.Expr.Children

/-!
# Replacing parts from the top

`replaceTopmost pick` goes through an expression from the root down.  Where `pick` has something to
put in place of what it finds, that is put there, and the walk does not go further down; a node for
which it has nothing stays, and the walk goes on to the children.  So what is replaced are the
picked subexpressions that are not inside of another one, that is, the largest, and everything
outside of them is left as it is.
-/

namespace ExprLang
namespace Expr

mutual

/-- The expression with its topmost picked parts replaced by what they are picked for. -/
def replaceTopmost (pick : Expr → Option Expr) : Expr → Expr
  | literal v p => (pick (literal v p)).getD (literal v p)
  | reference name p => (pick (reference name p)).getD (reference name p)
  | array elements p =>
    (pick (array elements p)).getD (array (replaceElements pick elements) p)
  | map entries p => (pick (map entries p)).getD (map (replaceEntries pick entries) p)
  | unary op operand p =>
    (pick (unary op operand p)).getD (unary op (replaceTopmost pick operand) p)
  | subscript indexable index p =>
    (pick (subscript indexable index p)).getD
      (subscript (replaceTopmost pick indexable) (replaceTopmost pick index) p)
  | binary left op right p =>
    (pick (binary left op right p)).getD
      (binary (replaceTopmost pick left) op (replaceTopmost pick right) p)

/-- Several expressions, with the topmost picked parts of each replaced. -/
def replaceElements (pick : Expr → Option Expr) : List Expr → List Expr
  | [] => []
  | e :: rest => replaceTopmost pick e :: replaceElements pick rest

/-- The entries of a map display, with the topmost picked parts of each replaced. -/
def replaceEntries (pick : Expr → Option Expr) : List (String × Expr) → List (String × Expr)
  | [] => []
  | (key, e) :: rest => (key, replaceTopmost pick e) :: replaceEntries pick rest

end

variable {pick : Expr → Option Expr}

theorem replaceElements_eq_map (elements : List Expr) :
    replaceElements pick elements = elements.map (replaceTopmost pick) := by
  induction elements with
  | nil => rfl
  | cons e rest ih => rw [replaceElements, ih, List.map_cons]

theorem replaceEntries_eq_map (entries : List (String × Expr)) :
    replaceEntries pick entries = entries.map fun e => (e.1, replaceTopmost pick e.2) := by
  induction entries with
  | nil => rfl
  | cons e rest ih => rw [replaceEntries, ih, List.map_cons]

/-- **Either the whole is replaced, or its children are gone through.** -/
theorem replaceTopmost_eq (e : Expr) :
    e.replaceTopmost pick = (pick e).getD (e.mapChildren (replaceTopmost pick)) := by
  cases e with
  | array elements p => rw [replaceTopmost, replaceElements_eq_map, mapChildren]
  | map entries p => rw [replaceTopmost, replaceEntries_eq_map, mapChildren]
  | _ => rw [replaceTopmost, mapChildren]

theorem replaceTopmost_of_eq_some {e r : Expr} (h : pick e = some r) :
    e.replaceTopmost pick = r := by
  rw [replaceTopmost_eq, h, Option.getD_some]

theorem replaceTopmost_of_eq_none {e : Expr} (h : pick e = none) :
    e.replaceTopmost pick = e.mapChildren (replaceTopmost pick) := by
  rw [replaceTopmost_eq, h, Option.getD_none]

end Expr
end ExprLang
