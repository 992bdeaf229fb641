import ExprLang.Expr.Basic

/-!
# A node and its children

Whatever walks over an expression does something of its own at some nodes, and at the others goes
on to the children and leaves the node as it is.  This module names that second part, so that a
theory of a walk has one case for all the nodes at which nothing of its own happens.

* `mapChildren f` applies `f` to the direct children.  The node keeps its sort, its position, its
  operator and its keys (`position_mapChildren`, `binaryOp?_mapChildren`), and its children are
  those of before, one by one (`children_mapChildren`).
* `unindexedChildren` and `index?` tell the index of a subscript from the other children, since it is
  the one child that sees another environment than the node.
* `induction_on_children` is induction with a single case.
* `Everywhere P` says that `P` holds of the expression and of all that is below it.
-/

namespace ExprLang
namespace Expr

/-- The node with a function applied to each of its direct children. -/
def mapChildren (f : Expr → Expr) : Expr → Expr
  | literal v p => literal v p
  | reference name p => reference name p
  | array elements p => array (elements.map f) p
  | map entries p => map (entries.map fun e => (e.1, f e.2)) p
  | unary op operand p => unary op (f operand) p
  | subscript indexable index p => subscript (f indexable) (f index) p
  | binary left op right p => binary (f left) op (f right) p

@[simp] theorem position_mapChildren (f : Expr → Expr) (e : Expr) :
    (e.mapChildren f).position = e.position := by
  cases e <;> rfl

@[simp] theorem binaryOp?_mapChildren (f : Expr → Expr) (e : Expr) :
    (e.mapChildren f).binaryOp? = e.binaryOp? := by
  cases e <;> rfl

/-- **The children of the result are the results of the children**, in the same order. -/
@[simp] theorem children_mapChildren (f : Expr → Expr) (e : Expr) :
    (e.mapChildren f).children = e.children.map f := by
  cases e with
  | map entries p =>
    rw [mapChildren, children, children, List.map_map, List.map_map]
    rfl
  | _ => rfl

/-- A node depends on its children only. -/
theorem mapChildren_congr {f g : Expr → Expr} {e : Expr} (h : ∀ c ∈ e.children, f c = g c) :
    e.mapChildren f = e.mapChildren g := by
  cases e with
  | literal v p => rfl
  | reference name p => rfl
  | array elements p =>
    have helements : elements.map f = elements.map g := List.map_congr_left h
    rw [mapChildren, mapChildren, helements]
  | map entries p =>
    have hentries : ∀ e ∈ entries, (e.1, f e.2) = (e.1, g e.2) := by
      intro e he
      rw [h e.2 (List.mem_map_of_mem he)]
    rw [mapChildren, mapChildren, List.map_congr_left hentries]
  | unary op operand p =>
    rw [mapChildren, mapChildren, h operand (by simp [children])]
  | subscript indexable index p =>
    rw [mapChildren, mapChildren, h indexable (by simp [children]), h index (by simp [children])]
  | binary left op right p =>
    rw [mapChildren, mapChildren, h left (by simp [children]), h right (by simp [children])]

theorem mapChildren_id (e : Expr) : e.mapChildren id = e := by
  cases e <;> simp [mapChildren]

/-- Leaving every child alone leaves the node alone. -/
theorem mapChildren_eq_self {f : Expr → Expr} {e : Expr} (h : ∀ c ∈ e.children, f c = c) :
    e.mapChildren f = e := by
  rw [mapChildren_congr (g := id) h, mapChildren_id]

/-! ## The index of a subscript -/

/-- The children that are evaluated where the node is: all but the index of a subscript. -/
def unindexedChildren : Expr → List Expr
  | subscript indexable _ _ => [indexable]
  | e => e.children

/-- The index, if the node is a subscript. -/
def index? : Expr → Option Expr
  | subscript _ index _ => some index
  | _ => none

theorem children_eq_append (e : Expr) : e.children = e.unindexedChildren ++ e.index?.toList := by
  cases e <;> simp [children, unindexedChildren, index?]

theorem mem_children_of_mem_unindexedChildren {e c : Expr} (hc : c ∈ e.unindexedChildren) :
    c ∈ e.children := by
  rw [children_eq_append]
  exact List.mem_append_left _ hc

/-! ## Induction -/

/-- What holds of a node whenever it holds of the children holds of every expression. -/
theorem induction_on_children {motive : Expr → Prop}
    (node : ∀ e, (∀ c ∈ e.children, motive c) → motive e) (e : Expr) : motive e := by
  induction e using Expr.induction with
  | literal v p => exact node _ fun c hc => absurd hc List.not_mem_nil
  | reference name p => exact node _ fun c hc => absurd hc List.not_mem_nil
  | array elements p ih => exact node _ ih
  | map entries p ih =>
    refine node _ fun c hc => ?_
    obtain ⟨entry, hentry, rfl⟩ := List.mem_map.1 hc
    exact ih entry hentry
  | unary op operand p ih =>
    refine node _ fun c hc => ?_
    rw [List.mem_singleton.1 hc]
    exact ih
  | subscript indexable index p ih ih' =>
    refine node _ fun c hc => ?_
    simp only [children, List.mem_cons, List.not_mem_nil, or_false] at hc
    rcases hc with rfl | rfl
    · exact ih
    · exact ih'
  | binary left op right p ih ih' =>
    refine node _ fun c hc => ?_
    simp only [children, List.mem_cons, List.not_mem_nil, or_false] at hc
    rcases hc with rfl | rfl
    · exact ih
    · exact ih'

/-! ## Properties of all nodes -/

/-- A property of a node, of its children, of theirs, and so on down to the leaves. -/
inductive Everywhere (P : Expr → Prop) : Expr → Prop where
  | node {e : Expr} (root : P e) (below : ∀ c ∈ e.children, Everywhere P c) : Everywhere P e

namespace Everywhere
variable {P : Expr → Prop} {e : Expr}

theorem root (h : e.Everywhere P) : P e := by
  cases h with
  | node hroot _ => exact hroot

theorem of_mem_children (h : e.Everywhere P) {c : Expr} (hc : c ∈ e.children) :
    c.Everywhere P := by
  cases h with
  | node _ hbelow => exact hbelow c hc

end Everywhere

theorem everywhere_iff {P : Expr → Prop} {e : Expr} :
    e.Everywhere P ↔ P e ∧ ∀ c ∈ e.children, c.Everywhere P :=
  ⟨fun h => ⟨h.root, fun _ hc => h.of_mem_children hc⟩, fun h => .node h.1 h.2⟩

end Expr
end ExprLang
