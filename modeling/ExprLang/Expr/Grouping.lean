import ExprLang.Expr.Basic

/-!
# Grouping by precedence

A reader that knows nothing of precedence builds `3 + 4 * 2` from left to right, as `(3 + 4) * 2`.
`regroup` restores what was meant: it turns every binary node until each binds at least as loosely as the
binary nodes right below it.  Operands keep their order, and each operator keeps its position.  Only binary
nodes are turned; groups and every other node are left standing and are regrouped inside.

## Turning a node

Settling the node `l P r`, with `l` and `r` settled before:

* if `l` is `a L b` and `L` binds looser than `P`, the node becomes `a L (b P r)`;
* else, if `r` is `b R c` and `R` binds looser than `P`, or as tightly where the two may be regrouped, it
  becomes `(l P b) R c`.

In both cases first the inner node is settled and then the outer one.

## Why it ends

The inner node has fewer operators than the whole.  The outer node has as many, and its operator binds looser
than `P` or as tightly; in the second case its right operand has become shorter.  So the number of operators,
the precedence at the root and the number of operators on the right, in this order of weight, decrease.  For
the outer call this needs that settling keeps the number of operators, and that is why `settleCounted` returns
it along with the node.  No call depends on the operands being settled already; that they are is what makes
the second settling short.
-/

namespace ExprLang
namespace Expr

/-- The parts of a binary node. -/
structure Operation where
  left : Expr
  op : BinaryOp
  right : Expr
  position : Position

/-- Two operators of one precedence that may be regrouped from the right to the left. -/
def regroupable (parent child : BinaryOp) : Bool :=
  child.precedence == parent.precedence && parent.associative && child.associative
    && parent.commutative == child.commutative

/-- The left operand, if it is an operation that binds looser than its parent. -/
def looserLeft? (parent : BinaryOp) : Expr → Option Operation
  | binary a op b p => if op.precedence < parent.precedence then some ⟨a, op, b, p⟩ else none
  | _ => none

/-- The right operand, if it is an operation that binds looser than its parent or may be regrouped with
it. -/
def looserRight? (parent : BinaryOp) : Expr → Option Operation
  | binary a op b p =>
    if op.precedence < parent.precedence ∨ regroupable parent op = true then some ⟨a, op, b, p⟩ else none
  | _ => none

theorem looserLeft?_eq_some {parent : BinaryOp} {e : Expr} {o : Operation}
    (h : looserLeft? parent e = some o) :
    e = binary o.left o.op o.right o.position ∧ o.op.precedence < parent.precedence := by
  unfold looserLeft? at h
  split at h
  · split at h
    · rename_i hlt
      cases h
      exact ⟨rfl, hlt⟩
    · cases h
  · cases h

theorem looserRight?_eq_some {parent : BinaryOp} {e : Expr} {o : Operation}
    (h : looserRight? parent e = some o) :
    e = binary o.left o.op o.right o.position ∧
      (o.op.precedence < parent.precedence ∨ regroupable parent o.op = true) := by
  unfold looserRight? at h
  split at h
  · split at h
    · rename_i hor
      cases h
      exact ⟨rfl, hor⟩
    · cases h
  · cases h

theorem precedence_eq_of_regroupable {parent child : BinaryOp} (h : regroupable parent child = true) :
    child.precedence = parent.precedence := by
  simp only [regroupable, Bool.and_eq_true, beq_iff_eq] at h
  exact h.1.1.1

/-! ## Settling one node -/

/-- The number of operators in the top region of binary nodes. -/
def operatorCount : Expr → Nat
  | binary left _ right _ => operatorCount left + operatorCount right + 1
  | _ => 0

/-- The settled node, with the fact that it has as many operators as it was made of. -/
def settleCounted (left : Expr) (op : BinaryOp) (right : Expr) (p : Position) :
    { e : Expr // e.operatorCount = left.operatorCount + right.operatorCount + 1 } :=
  match hl : looserLeft? op left with
  | some o =>
    let ⟨inner, hi⟩ := settleCounted o.right op right p
    let ⟨outer, ho⟩ := settleCounted o.left o.op inner o.position
    ⟨outer, by
      rw [ho, hi, (looserLeft?_eq_some hl).1, operatorCount]
      omega⟩
  | none =>
    match hr : looserRight? op right with
    | some o =>
      let ⟨inner, hi⟩ := settleCounted left op o.left p
      let ⟨outer, ho⟩ := settleCounted inner o.op o.right o.position
      ⟨outer, by
        rw [ho, hi, (looserRight?_eq_some hr).1, operatorCount]
        omega⟩
    | none => ⟨binary left op right p, rfl⟩
termination_by (left.operatorCount + right.operatorCount, op.precedence, right.operatorCount)
decreasing_by
  · -- the inner node is a part of the whole
    rw [(looserLeft?_eq_some hl).1, operatorCount]
    exact Prod.Lex.left _ _ (by omega)
  · -- the outer node is as large and binds looser
    rw [hi, (looserLeft?_eq_some hl).1, operatorCount]
    exact Prod.Lex.right' _ (by omega) (Prod.Lex.left _ _ (looserLeft?_eq_some hl).2)
  · rw [(looserRight?_eq_some hr).1, operatorCount]
    exact Prod.Lex.left _ _ (by omega)
  · rw [hi, (looserRight?_eq_some hr).1, operatorCount]
    refine Prod.Lex.right' _ (by omega) ?_
    rcases (looserRight?_eq_some hr).2 with h | h
    · exact Prod.Lex.left _ _ h
    · -- it binds as tightly, but its right operand is shorter
      rw [precedence_eq_of_regroupable h]
      exact Prod.Lex.right _ (by omega)

/-- The node `left op right`, turned until it is settled; its operands are settled already. -/
def settle (left : Expr) (op : BinaryOp) (right : Expr) (p : Position) : Expr :=
  (settleCounted left op right p).1

/-- What one step of settling does. -/
theorem settle_eq (left : Expr) (op : BinaryOp) (right : Expr) (p : Position) :
    settle left op right p =
      match looserLeft? op left with
      | some o => settle o.left o.op (settle o.right op right p) o.position
      | none =>
        match looserRight? op right with
        | some o => settle (settle left op o.left p) o.op o.right o.position
        | none => binary left op right p := by
  unfold settle
  rw [settleCounted]
  split
  · rename_i o h
    simp only [h]
  · rename_i h
    split
    · rename_i o h'
      simp only [h, h']
    · rename_i h'
      simp only [h, h']

/-! ## Regrouping an expression -/

mutual

/-- The expression with every binary node settled, from the leaves up. -/
def regroup : Expr → Expr
  | literal v p => literal v p
  | reference name p => reference name p
  | array elements p => array (regroupElements elements) p
  | map entries p => map (regroupEntries entries) p
  | unary op operand p => unary op (regroup operand) p
  | subscript indexable index p => subscript (regroup indexable) (regroup index) p
  | binary left op right p => settle (regroup left) op (regroup right) p

/-- Several expressions, each regrouped. -/
def regroupElements : List Expr → List Expr
  | [] => []
  | e :: rest => regroup e :: regroupElements rest

/-- The entries of a map display, each regrouped. -/
def regroupEntries : List (String × Expr) → List (String × Expr)
  | [] => []
  | (key, e) :: rest => (key, regroup e) :: regroupEntries rest

end

theorem regroupElements_eq_map (elements : List Expr) :
    regroupElements elements = elements.map regroup := by
  induction elements with
  | nil => rfl
  | cons e rest ih => rw [regroupElements, ih, List.map_cons]

theorem regroupEntries_eq_map (entries : List (String × Expr)) :
    regroupEntries entries = entries.map fun e => (e.1, regroup e.2) := by
  induction entries with
  | nil => rfl
  | cons e rest ih => rw [regroupEntries, ih, List.map_cons]

end Expr
end ExprLang
