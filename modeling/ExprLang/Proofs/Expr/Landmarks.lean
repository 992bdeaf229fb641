import ExprLang.Proofs.Expr.Children

/-!
# Landmarks

What an expression gives can depend on where and by whom it is evaluated for two reasons only: it
refers to a variable, or it builds a range, whose length may be limited.  The nodes of these two
sorts are its *landmarks*.

`landmarks` lists them, each with its position and every node before those below it.  So two
expressions with the same list have the same variables and ranges at the same places of the text,
and none of them has more or fewer.  An expression is free of both if the list is empty, which is to say that
neither the node itself nor a child has any (`landmarks_eq_nil_iff_children`).
-/

namespace ExprLang
namespace Expr

/-- A reference to a variable, or a range, at its position. -/
inductive Landmark where
  | variable (name : String) (position : Position)
  | range (position : Position)
  deriving DecidableEq, Repr

/-- The landmark that the node itself is, if it is one. -/
def landmark? : Expr → Option Landmark
  | reference name p => some (.variable name p)
  | binary _ .range _ p => some (.range p)
  | _ => none

mutual

/-- The landmarks of an expression, each node before its children. -/
def landmarks : Expr → List Landmark
  | literal _ _ => []
  | reference name p => [.variable name p]
  | array elements _ => elementLandmarks elements
  | map entries _ => entryLandmarks entries
  | unary _ operand _ => landmarks operand
  | subscript indexable index _ => landmarks indexable ++ landmarks index
  | binary left op right p =>
    (landmark? (binary left op right p)).toList ++ (landmarks left ++ landmarks right)

/-- The landmarks of several expressions. -/
def elementLandmarks : List Expr → List Landmark
  | [] => []
  | e :: rest => landmarks e ++ elementLandmarks rest

/-- The landmarks of the expressions of several entries. -/
def entryLandmarks : List (String × Expr) → List Landmark
  | [] => []
  | (_, e) :: rest => landmarks e ++ entryLandmarks rest

end

theorem elementLandmarks_eq_flatMap (elements : List Expr) :
    elementLandmarks elements = elements.flatMap landmarks := by
  induction elements with
  | nil => rfl
  | cons e rest ih => rw [elementLandmarks, ih, List.flatMap_cons]

theorem entryLandmarks_eq_flatMap (entries : List (String × Expr)) :
    entryLandmarks entries = (entries.map Prod.snd).flatMap landmarks := by
  induction entries with
  | nil => rfl
  | cons e rest ih => rw [entryLandmarks, ih, List.map_cons, List.flatMap_cons]

/-- **The landmarks are the node itself, if it is one, and those of the children.** -/
theorem landmarks_eq (e : Expr) :
    e.landmarks = e.landmark?.toList ++ e.children.flatMap landmarks := by
  cases e with
  | array elements p => rw [landmarks, elementLandmarks_eq_flatMap, children]; rfl
  | map entries p => rw [landmarks, entryLandmarks_eq_flatMap, children]; rfl
  | _ => simp [landmarks, landmark?, children]

theorem landmarks_eq_nil_iff_children {e : Expr} :
    e.landmarks = [] ↔ e.landmark? = none ∧ ∀ c ∈ e.children, c.landmarks = [] := by
  rw [landmarks_eq, List.append_eq_nil_iff, Option.toList_eq_nil_iff, List.flatMap_eq_nil_iff]

theorem landmarks_of_isLiteral {e : Expr} (h : e.isLiteral = true) : e.landmarks = [] := by
  cases e with
  | literal v p => rfl
  | _ => cases h

@[simp] theorem landmark?_mapChildren (f : Expr → Expr) (e : Expr) :
    (e.mapChildren f).landmark? = e.landmark? := by
  cases e with
  | binary left op right p => cases op <;> rfl
  | _ => rfl

/-- Changing the children without changing their landmarks changes no landmarks. -/
theorem landmarks_mapChildren {f : Expr → Expr} {e : Expr}
    (h : ∀ c ∈ e.children, (f c).landmarks = c.landmarks) :
    (e.mapChildren f).landmarks = e.landmarks := by
  have hbelow : (e.children.map fun c => (f c).landmarks) = e.children.map landmarks :=
    List.map_congr_left h
  rw [landmarks_eq, landmarks_eq e, landmark?_mapChildren, children_mapChildren, List.flatMap_map,
    List.flatMap_def, List.flatMap_def, hbelow]

end Expr
end ExprLang
