import ExprLang.Proofs.Grouping.Turning

/-!
# Settled expressions

An expression is settled when at each of its binary nodes, wherever it stands, both operands
fit.  The definition speaks of one node at a time and does not mention turns.  Regrouping reaches
such an expression from any other and stops there:

* `settled_settle`: settling a node of settled operands gives a settled expression.  A turn makes
  two new nodes, and either of them may be out of order again; but both are settled in turn, and
  their operands are settled when their turn comes.  So nothing need be known of how the
  precedences lie.
* `settled_regroup`: whatever is regrouped is settled.
* `regroup_of_settled`: what is settled is left as it is, positions included.

Together these make regrouping a projection onto the settled expressions
(`settled_regroup_and_regroup_eq_self_iff`).
-/

namespace ExprLang
namespace Expr

/-- A node that is not binary, or one whose operands fit. -/
def SettledNode : Expr → Prop
  | binary left op right _ => FitsLeft op left ∧ FitsRight op right
  | _ => True

/-- All binary nodes of the expression have operands that fit. -/
def Settled (e : Expr) : Prop := e.Everywhere SettledNode

theorem settledNode_of_not_binary {e : Expr} (h : e.binaryOp? = none) : e.SettledNode := by
  cases e with
  | binary left op right p => cases h
  | _ => trivial

theorem settled_of_children {e : Expr} (h : e.binaryOp? = none)
    (hc : ∀ c ∈ e.children, c.Settled) : e.Settled :=
  .node (settledNode_of_not_binary h) hc

theorem settled_binary_iff {left : Expr} {op : BinaryOp} {right : Expr} {p : Position} :
    (binary left op right p).Settled ↔
      (FitsLeft op left ∧ FitsRight op right) ∧ left.Settled ∧ right.Settled := by
  rw [Settled, everywhere_iff]
  simp only [SettledNode, children, List.forall_mem_cons, List.not_mem_nil, false_implies,
    implies_true, and_true, Settled]

/-- **Settling makes a settled expression of settled operands.** -/
theorem settled_settle {left : Expr} {op : BinaryOp} {right : Expr} {p : Position}
    (hleft : left.Settled) (hright : right.Settled) : (settle left op right p).Settled := by
  induction left, op, right, p using settle_induction with
  | turn_right a lower b q op right p _ ih ih' =>
    obtain ⟨_, ha, hb⟩ := settled_binary_iff.1 hleft
    exact ih' ha (ih hb hright)
  | turn_left left op a lower b q p _ _ ih ih' =>
    obtain ⟨_, ha, hb⟩ := settled_binary_iff.1 hright
    exact ih' (ih hleft ha) hb
  | fits left op right p hl hr => exact settled_binary_iff.2 ⟨⟨hl, hr⟩, hleft, hright⟩

/-- **Whatever is regrouped is settled.** -/
theorem settled_regroup (e : Expr) : e.regroup.Settled := by
  induction e using regroup_induction with
  | barrier e h ih =>
    refine settled_of_children (by rw [binaryOp?_mapChildren, h]) fun c hc => ?_
    rw [children_mapChildren] at hc
    obtain ⟨d, hd, rfl⟩ := List.mem_map.1 hc
    exact ih d hd
  | operation left op right p ih ih' => exact settled_settle ih ih'

/-- **What is settled stays as it is.** -/
theorem regroup_of_settled {e : Expr} (h : e.Settled) : e.regroup = e := by
  induction e using regroup_induction with
  | barrier e _ ih => exact mapChildren_eq_self fun c hc => ih c hc (h.of_mem_children hc)
  | operation left op right p ih ih' =>
    obtain ⟨⟨hl, hr⟩, hleft, hright⟩ := settled_binary_iff.1 h
    rw [ih hleft, ih' hright, settle_of_fits hl hr]

/-- **Regrouping projects onto the settled expressions.**  The result is settled, just the settled
expressions are left unchanged, and so regrouping twice is regrouping once. -/
theorem settled_regroup_and_regroup_eq_self_iff (e : Expr) :
    e.regroup.Settled ∧ (e.regroup = e ↔ e.Settled) ∧ e.regroup.regroup = e.regroup := by
  refine ⟨settled_regroup e, ⟨fun h => ?_, regroup_of_settled⟩, ?_⟩
  · rw [← h]
    exact settled_regroup e
  · exact regroup_of_settled (settled_regroup e)

end Expr
end ExprLang
