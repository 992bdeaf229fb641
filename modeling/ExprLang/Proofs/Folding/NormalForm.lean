import ExprLang.Proofs.Folding.Maximal
import ExprLang.Proofs.Grouping.Settled

/-!
# One pass of each is enough

An expression is regrouped when its formula is made, and then folded.  Neither pass leaves work
behind, neither for itself nor for the other.

* *For folding itself*: an expression is folded when nothing in it has a constant value (`Folded`).
  What comes out of folding is (`folded_fold`): a node that was kept has children that are folded,
  and would it have a constant value now, it would have had one before.  What is folded is left
  alone (`fold_of_folded`).
* *For regrouping*: folding replaces nodes by literals, and a literal fits on either side of every
  operator.  The binary nodes that stay keep their operators, so operands that fitted still do
  (`settled_fold`).

Regrouping comes first and establishes that all is settled, and so the expression that comes out at
the end is a fixed point of both, whatever the settings of a second pass are
(`regroup_fold_regroup_and_fold_fold_regroup`).
-/

namespace ExprLang
namespace Expr

/-! ## Folded expressions -/

/-- Nothing in the expression has a constant value, which is to say that there are only literals in
place of what has one. -/
def Folded (s : Settings) (e : Expr) : Prop := e.Everywhere fun n => n.constantValue? s = none

variable {s : Settings} {e : Expr}

theorem folded_of_isLeaf (h : e.isLeaf = true) : e.Folded s :=
  everywhere_of_isLeaf h (constantValue?_of_isLeaf h)

theorem folded_congr (s t : Settings) (e : Expr) : e.Folded s ↔ e.Folded t := by
  have hvalue : (fun n : Expr => n.constantValue? s = none) = fun n => n.constantValue? t = none := by
    funext n
    rw [constantValue?_congr s t]
  rw [Folded, Folded, hvalue]

/-- **Whatever is folded has nothing left to fold.** -/
theorem folded_fold (s : Settings) (e : Expr) : (e.fold s).Folded s := by
  induction e using constant_induction (s := s) with
  | leaf e hleaf => exact folded_of_isLeaf hleaf
  | constant e v _ => exact folded_of_isLeaf rfl
  | kept e hleaf hnone ih =>
    have hleaf' : (e.mapChildren (fold s)).isLeaf = false := by rw [isLeaf_mapChildren, hleaf]
    refine .node ?_ fun c hc => ?_
    · -- a constant value now would be one of the expression as it was
      rw [← Option.not_isSome_iff_eq_none, isSome_constantValue?_iff hleaf', binaryOp?_mapChildren,
        children_mapChildren, List.forall_mem_map, evaluate_mapChildren_fold]
      rintro ⟨⟨hrange, hchildren⟩, hvalue⟩
      have hconstant : ∀ c ∈ e.children, c.isLiteral = true ∨ (c.constantValue? s).isSome = true := by
        intro c hc
        rcases hchildren c hc with hliteral | hsome
        · exact (isLiteral_fold_iff s c).1 hliteral
        · rw [(ih c hc).root] at hsome
          cases hsome
      have hsome := (isSome_constantValue?_iff hleaf).2 ⟨⟨hrange, hconstant⟩, hvalue⟩
      rw [hnone] at hsome
      cases hsome
    · rw [children_mapChildren] at hc
      obtain ⟨d, hd, rfl⟩ := List.mem_map.1 hc
      exact ih d hd

/-- **What is folded stays as it is.** -/
theorem fold_of_folded (h : e.Folded s) : e.fold s = e := by
  induction e using constant_induction (s := s) with
  | leaf e _ => rfl
  | constant e v hsome =>
    rw [h.root] at hsome
    cases hsome
  | kept e _ _ ih => exact mapChildren_eq_self fun c hc => ih c hc (h.of_mem_children hc)

/-! ## Settled expressions -/

/-- Folding makes no operations. -/
theorem binaryOp?_of_binaryOp?_fold {op : BinaryOp} (h : (e.fold s).binaryOp? = some op) :
    e.binaryOp? = some op := by
  induction e using constant_induction (s := s) with
  | leaf e _ => exact h
  | constant e v _ => cases h
  | kept e _ _ _ => rwa [binaryOp?_mapChildren] at h

theorem settled_of_isLeaf (h : e.isLeaf = true) : e.Settled := by
  refine everywhere_of_isLeaf h (settledNode_of_not_binary ?_)
  cases e with
  | binary left op right p => cases h
  | _ => rfl

/-- **Folding leaves settled what is settled.** -/
theorem settled_fold (h : e.Settled) : (e.fold s).Settled := by
  induction e using constant_induction (s := s) with
  | leaf e _ => exact h
  | constant e v _ => exact settled_of_isLeaf rfl
  | kept e _ _ ih =>
    refine .node ?_ fun c hc => ?_
    · cases e with
      | binary left op right p =>
        obtain ⟨hleft, hright⟩ := h.root
        exact ⟨fun child hchild => hleft child (binaryOp?_of_binaryOp?_fold hchild),
          fun child hchild => hright child (binaryOp?_of_binaryOp?_fold hchild)⟩
      | _ => trivial
    · rw [children_mapChildren] at hc
      obtain ⟨d, hd, rfl⟩ := List.mem_map.1 hc
      exact ih d hd (h.of_mem_children hd)

/-! ## Both passes -/

/-- **A regrouped and folded expression is a fixed point of both passes**, under all settings, and
its formula is left unchanged by being made again and by being folded again. -/
theorem regroup_fold_regroup_and_fold_fold_regroup (s t : Settings) (e : Expr) :
    ((e.regroup.fold s).regroup = e.regroup.fold s ∧
      (e.regroup.fold s).fold t = e.regroup.fold s) ∧
      Formula.ofExpr ((Formula.ofExpr e).fold s).root = (Formula.ofExpr e).fold s ∧
      ((Formula.ofExpr e).fold s).fold t = (Formula.ofExpr e).fold s := by
  have hregroup : (e.regroup.fold s).regroup = e.regroup.fold s :=
    regroup_of_settled (settled_fold (settled_regroup e))
  have hfold : (e.regroup.fold s).fold t = e.regroup.fold s :=
    fold_of_folded ((folded_congr s t _).1 (folded_fold s _))
  exact ⟨⟨hregroup, hfold⟩, congrArg Formula.mk hregroup, congrArg Formula.mk hfold⟩

end Expr
end ExprLang
