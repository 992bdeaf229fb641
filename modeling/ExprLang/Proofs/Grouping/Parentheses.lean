import ExprLang.Folding
import ExprLang.Proofs.Evaluation.Composition
import ExprLang.Proofs.Grouping.Settled

/-!
# Explicit parentheses

Whoever wants an expression to be taken as it stands puts parentheses around every operation that is
an operand of another one.  `parenthesized` does that, at all depths.

This works for two reasons that have nothing to do with each other.

* To regrouping a group is an operand like any other.  It is no binary node, so it fits below every
  operator (`binaryOp?_grouped`), and there is nothing left to turn: the expression is settled
  (`settled_parenthesized`).
* To evaluation a group is nothing.  It gives what its operand gives, and as it was put at the position
  of its operand, where that stands already, it leaves no mark of its own (`evaluate_grouped`).

Both are carried through an expression by `parenthesized_induction`, which tells the operations, where
groups are put, from the other nodes.
-/

namespace ExprLang
namespace Expr

/-- An operation in parentheses, which stand where it does; other expressions need none. -/
def grouped : Expr → Expr
  | binary left op right p => unary .group (binary left op right p) p
  | e => e

mutual

/-- The expression with every operation that is an operand of another one in parentheses. -/
def parenthesized : Expr → Expr
  | literal v p => literal v p
  | reference name p => reference name p
  | array elements p => array (parenthesizedElements elements) p
  | map entries p => map (parenthesizedEntries entries) p
  | unary op operand p => unary op (parenthesized operand) p
  | subscript indexable index p => subscript (parenthesized indexable) (parenthesized index) p
  | binary left op right p =>
    binary (grouped (parenthesized left)) op (grouped (parenthesized right)) p

/-- Several expressions, each with its operands in parentheses. -/
def parenthesizedElements : List Expr → List Expr
  | [] => []
  | e :: rest => parenthesized e :: parenthesizedElements rest

/-- The entries of a map display, each with its operands in parentheses. -/
def parenthesizedEntries : List (String × Expr) → List (String × Expr)
  | [] => []
  | (key, e) :: rest => (key, parenthesized e) :: parenthesizedEntries rest

end

/-! ## The walk -/

theorem parenthesizedElements_eq_map (elements : List Expr) :
    parenthesizedElements elements = elements.map parenthesized := by
  induction elements with
  | nil => rfl
  | cons e rest ih => rw [parenthesizedElements, ih, List.map_cons]

theorem parenthesizedEntries_eq_map (entries : List (String × Expr)) :
    parenthesizedEntries entries = entries.map fun e => (e.1, parenthesized e.2) := by
  induction entries with
  | nil => rfl
  | cons e rest ih => rw [parenthesizedEntries, ih, List.map_cons]

/-- The operands of an operation are put in parentheses, after what is inside of them. -/
theorem parenthesized_binary (left : Expr) (op : BinaryOp) (right : Expr) (p : Position) :
    (binary left op right p).parenthesized =
      (binary left op right p).mapChildren fun c => c.parenthesized.grouped := by
  rw [parenthesized, mapChildren]

/-- Nothing is put around the children of any other node. -/
theorem parenthesized_of_not_binary {e : Expr} (h : e.binaryOp? = none) :
    e.parenthesized = e.mapChildren parenthesized := by
  cases e with
  | array elements p => rw [parenthesized, parenthesizedElements_eq_map, mapChildren]
  | map entries p => rw [parenthesized, parenthesizedEntries_eq_map, mapChildren]
  | binary left op right p => cases h
  | _ => rw [parenthesized, mapChildren]

/-- **Induction along putting parentheses.**  The last argument of the property is the expression with
parentheses. -/
theorem parenthesized_induction {motive : Expr → Expr → Prop}
    (barrier : ∀ e, e.binaryOp? = none → (∀ c ∈ e.children, motive c c.parenthesized) →
      motive e (e.mapChildren parenthesized))
    (operation : ∀ left op right p, motive left left.parenthesized →
      motive right right.parenthesized → motive (binary left op right p)
        ((binary left op right p).mapChildren fun c => c.parenthesized.grouped))
    (e : Expr) : motive e e.parenthesized := by
  induction e using induction_on_children with
  | node e ih =>
    cases e with
    | binary left op right p =>
      rw [parenthesized_binary]
      exact operation _ _ _ _ (ih left (by simp [children])) (ih right (by simp [children]))
    | _ =>
      rw [parenthesized_of_not_binary rfl]
      exact barrier _ rfl ih

/-! ## Regrouping -/

theorem binaryOp?_grouped (e : Expr) : e.grouped.binaryOp? = none := by
  cases e <;> rfl

theorem settled_grouped {e : Expr} (h : e.Settled) : e.grouped.Settled := by
  cases e with
  | binary left op right p =>
    refine settled_of_children rfl fun c hc => ?_
    rw [List.mem_singleton.1 hc]
    exact h
  | _ => exact h

/-- **Parentheses leave nothing to turn.** -/
theorem settled_parenthesized (e : Expr) : e.parenthesized.Settled := by
  induction e using parenthesized_induction with
  | barrier e h ih =>
    refine settled_of_children (by rw [binaryOp?_mapChildren, h]) fun c hc => ?_
    rw [children_mapChildren] at hc
    obtain ⟨d, hd, rfl⟩ := List.mem_map.1 hc
    exact ih d hd
  | operation left op right p ih ih' =>
    have hleft : FitsLeft op left.parenthesized.grouped := fitsLeft_of_not_binary (binaryOp?_grouped _)
    have hright : FitsRight op right.parenthesized.grouped :=
      fitsRight_of_not_binary (binaryOp?_grouped _)
    exact settled_binary_iff.2 ⟨⟨hleft, hright⟩, settled_grouped ih, settled_grouped ih'⟩

/-! ## Evaluation -/

/-- A group that stands where its operand does gives what that gives. -/
theorem evaluate_unary_group (s : Settings) (e : Expr) (env : Environment) :
    (unary .group e e.position).evaluate s env = e.evaluate s env := by
  have happly : (e.evaluate s env >>= UnaryOp.group.apply) = e.evaluate s env := by
    cases e.evaluate s env <;> rfl
  rw [evaluate, happly, located_evaluate]

theorem evaluate_grouped (s : Settings) (e : Expr) (env : Environment) :
    e.grouped.evaluate s env = e.evaluate s env := by
  cases e with
  | binary left op right p => exact evaluate_unary_group s (binary left op right p) env
  | _ => rfl

/-- **Parentheses do not change what is evaluated.** -/
theorem evaluate_parenthesized (s : Settings) (e : Expr) (env : Environment) :
    e.parenthesized.evaluate s env = e.evaluate s env := by
  induction e using parenthesized_induction generalizing env with
  | barrier e h ih => exact evaluate_mapChildren_eq ih
  | operation left op right p ih ih' =>
    refine evaluate_mapChildren_eq fun c hc env => ?_
    simp only [children, List.mem_cons, List.not_mem_nil, or_false] at hc
    rcases hc with rfl | rfl
    · rw [evaluate_grouped, ih]
    · rw [evaluate_grouped, ih']

/-! ## Both together -/

/-- **Parentheses protect any shape.**  An expression with all its operands in parentheses is left by
regrouping as it is, and it gives what the expression without them gives: the same value with the same
positions, or the same fault at the same position.  So the formula made of it evaluates as the
expression was built, whatever the precedences of its operators. -/
theorem regroup_and_evaluate_parenthesized (s : Settings) (e : Expr) (env : Environment) :
    e.parenthesized.regroup = e.parenthesized ∧
      e.parenthesized.evaluate s env = e.evaluate s env ∧
      (Formula.ofExpr e.parenthesized).evaluate s env = e.evaluate s env := by
  have hregroup : e.parenthesized.regroup = e.parenthesized :=
    regroup_of_settled (settled_parenthesized e)
  have hevaluate : e.parenthesized.evaluate s env = e.evaluate s env := evaluate_parenthesized s e env
  refine ⟨hregroup, hevaluate, ?_⟩
  rw [Formula.evaluate, Formula.ofExpr, hregroup, hevaluate]

end Expr
end ExprLang
