import ExprLang.Proofs.Grouping.Turning

/-!
# Regrouping keeps the source order

The binary nodes at the top of an expression form a region.  Read from left to right it is a list
of operands with operators between them, each of these at its own position; `items` is that
list.  How the region is grouped cannot be seen in it, and all that a turn does is to group anew.

* `items_settle`: settling a node keeps its items, in order, each operator at its own position.
* `items_regroup`: the items of a regrouped expression are those of the expression, with the
  operators as they were and each operand regrouped below its root.  Since the operands of a
  region are the nodes that are not binary, nothing moves into or out of a group, a subscript, a
  display or the operand of a unary operator.
-/

namespace ExprLang
namespace Expr

/-- A member of a region of binary nodes: an operand that is no binary node, or an operator. -/
inductive Item where
  | operand (e : Expr)
  | operator (op : BinaryOp) (position : Position)

/-- The item with a function applied to the operand; an operator stays. -/
def Item.mapOperand (f : Expr → Expr) : Item → Item
  | operand e => operand (f e)
  | operator op p => operator op p

@[simp] theorem Item.mapOperand_operator (f : Expr → Expr) (op : BinaryOp) (p : Position) :
    (Item.operator op p).mapOperand f = .operator op p := rfl

/-- The top region of binary nodes, read from left to right. -/
def items : Expr → List Item
  | binary left op right p => items left ++ .operator op p :: items right
  | e => [.operand e]

@[simp] theorem items_binary (left : Expr) (op : BinaryOp) (right : Expr) (p : Position) :
    (binary left op right p).items = left.items ++ .operator op p :: right.items := by
  rw [items]

theorem items_of_not_binary {e : Expr} (h : e.binaryOp? = none) : e.items = [.operand e] := by
  cases e with
  | binary left op right p => cases h
  | _ => rfl

/-- **Settling keeps the items.** -/
theorem items_settle (left : Expr) (op : BinaryOp) (right : Expr) (p : Position) :
    (settle left op right p).items = left.items ++ .operator op p :: right.items := by
  induction left, op, right, p using settle_induction with
  | turn_right a lower b q op right p _ ih ih' =>
    calc (settle a lower (settle b op right p) q).items
        = a.items ++ .operator lower q :: (settle b op right p).items := ih'
      _ = a.items ++ .operator lower q :: (b.items ++ .operator op p :: right.items) := by
          rw [ih]
      _ = (binary a lower b q).items ++ .operator op p :: right.items := by
          rw [items_binary, List.append_assoc, List.cons_append]
  | turn_left left op a lower b q p _ _ ih ih' =>
    calc (settle (settle left op a p) lower b q).items
        = (settle left op a p).items ++ .operator lower q :: b.items := ih'
      _ = left.items ++ .operator op p :: a.items ++ .operator lower q :: b.items := by
          rw [ih]
      _ = left.items ++ .operator op p :: (binary a lower b q).items := by
          rw [items_binary, List.append_assoc, List.cons_append]
  | fits left op right p _ _ => rw [items_binary]

/-- **Regrouping keeps the source order.**  Nothing is lost, doubled, exchanged or given another
position: the operators are those of before, and an operand is what it was, except that its own
children are regrouped. -/
theorem items_regroup (e : Expr) :
    e.regroup.items = e.items.map (Item.mapOperand (mapChildren regroup)) := by
  induction e using regroup_induction with
  | barrier e h _ =>
    have h' : (e.mapChildren regroup).binaryOp? = none := by rw [binaryOp?_mapChildren, h]
    rw [items_of_not_binary h, items_of_not_binary h']
    rfl
  | operation left op right p ih ih' =>
    rw [items_settle, ih, ih', items_binary, List.map_append, List.map_cons,
      Item.mapOperand_operator]

end Expr
end ExprLang
