import ExprLang.Expr.Grouping
import ExprLang.Proofs.Expr.Children

/-!
# Turns

What settling does to a node depends on how its operands stand to its operator, and `FitsLeft` and
`FitsRight` say when they may stay where they are.  A node both of whose operands fit is settled
as it is (`settle_of_fits`).  Otherwise there is a turn to the right (`settle_turn_right`), which
takes precedence, or one to the left (`settle_turn_left`), and both leave two nodes to settle.

`settle_induction` is what the rest of the theory uses: a property of settling holds if it holds
of nodes that fit and is handed on by each of the two turns.  That the outer node of a turn is as
large as the whole is dealt with here, once, and so no proof about settling has a measure of its
own.

At a node that is not binary nothing is turned, and regrouping goes on to the children
(`regroup_of_not_binary`).  `regroup_induction` has one case for these nodes and one for
operations.
-/

namespace ExprLang
namespace Expr

/-! ## Operands that may stay -/

/-- The expression may stand left of the operator: if it is an operation, it binds at least as
tightly. -/
def FitsLeft (op : BinaryOp) (e : Expr) : Prop :=
  ∀ child, e.binaryOp? = some child → op.precedence ≤ child.precedence

/-- The expression may stand right of the operator: if it is an operation, it binds at least as
tightly, and if just as tightly, the two are not both associative and alike in whether they are
commutative. -/
def FitsRight (op : BinaryOp) (e : Expr) : Prop :=
  ∀ child, e.binaryOp? = some child → op.precedence ≤ child.precedence ∧
    (child.precedence = op.precedence →
      ¬ (op.associative = true ∧ child.associative = true ∧
        op.commutative = child.commutative))

theorem fitsLeft_of_not_binary {op : BinaryOp} {e : Expr} (h : e.binaryOp? = none) :
    FitsLeft op e := by
  intro child hchild
  rw [h] at hchild
  cases hchild

theorem fitsRight_of_not_binary {op : BinaryOp} {e : Expr} (h : e.binaryOp? = none) :
    FitsRight op e := by
  intro child hchild
  rw [h] at hchild
  cases hchild

theorem fitsLeft_binary_iff {op child : BinaryOp} {a b : Expr} {q : Position} :
    FitsLeft op (binary a child b q) ↔ op.precedence ≤ child.precedence := by
  constructor
  · intro h
    exact h child rfl
  · intro h c hc
    cases hc
    exact h

theorem regroupable_iff {op child : BinaryOp} :
    regroupable op child = true ↔ child.precedence = op.precedence ∧
      op.associative = true ∧ child.associative = true ∧ op.commutative = child.commutative := by
  simp only [regroupable, Bool.and_eq_true, beq_iff_eq, and_assoc]

theorem fitsRight_binary_iff {op child : BinaryOp} {a b : Expr} {q : Position} :
    FitsRight op (binary a child b q) ↔
      op.precedence ≤ child.precedence ∧ ¬ regroupable op child = true := by
  rw [regroupable_iff, not_and]
  constructor
  · intro h
    exact h child rfl
  · intro h c hc
    cases hc
    exact h

theorem not_fitsRight_binary_iff {op child : BinaryOp} {a b : Expr} {q : Position} :
    ¬ FitsRight op (binary a child b q) ↔
      child.precedence < op.precedence ∨ regroupable op child = true := by
  rw [fitsRight_binary_iff, Decidable.not_and_iff_or_not, Nat.not_le, Decidable.not_not]

theorem looserLeft?_eq_none_iff {op : BinaryOp} {e : Expr} :
    looserLeft? op e = none ↔ FitsLeft op e := by
  cases e with
  | binary a child b q =>
    rw [fitsLeft_binary_iff, looserLeft?, ← Nat.not_lt]
    split <;> simp_all
  | _ => exact ⟨fun _ => fitsLeft_of_not_binary rfl, fun _ => rfl⟩

theorem looserRight?_eq_none_iff {op : BinaryOp} {e : Expr} :
    looserRight? op e = none ↔ FitsRight op e := by
  cases e with
  | binary a child b q =>
    by_cases h : child.precedence < op.precedence ∨ regroupable op child = true
    · rw [looserRight?, if_pos h]
      exact ⟨fun hnone => absurd hnone (Option.some_ne_none _),
        fun hfits => absurd hfits (not_fitsRight_binary_iff.2 h)⟩
    · rw [looserRight?, if_neg h]
      exact ⟨fun _ => Classical.not_not.1 (mt not_fitsRight_binary_iff.1 h), fun _ => rfl⟩
  | _ => exact ⟨fun _ => fitsRight_of_not_binary rfl, fun _ => rfl⟩

/-! ## Settling -/

/-- **A node whose operands fit is settled.** -/
theorem settle_of_fits {left : Expr} {op : BinaryOp} {right : Expr} {p : Position}
    (hl : FitsLeft op left) (hr : FitsRight op right) :
    settle left op right p = binary left op right p := by
  rw [settle_eq, looserLeft?_eq_none_iff.2 hl, looserRight?_eq_none_iff.2 hr]

/-- A looser operation on the left comes to the top, with its own position. -/
theorem settle_turn_right {a : Expr} {lower : BinaryOp} {b : Expr} {q : Position} {op : BinaryOp}
    {right : Expr} {p : Position} (h : lower.precedence < op.precedence) :
    settle (binary a lower b q) op right p = settle a lower (settle b op right p) q := by
  rw [settle_eq, looserLeft?, if_pos h]

/-- Where the left operand fits and the right one does not, the latter comes to the top. -/
theorem settle_turn_left {left : Expr} {op : BinaryOp} {a : Expr} {lower : BinaryOp} {b : Expr}
    {q p : Position} (hl : FitsLeft op left) (hr : ¬ FitsRight op (binary a lower b q)) :
    settle left op (binary a lower b q) p = settle (settle left op a p) lower b q := by
  rw [settle_eq, looserLeft?_eq_none_iff.2 hl, looserRight?, if_pos (not_fitsRight_binary_iff.1 hr)]

/-- **Induction along settling.**  The last argument of the property is what the node settles to. -/
theorem settle_induction {motive : Expr → BinaryOp → Expr → Position → Expr → Prop}
    (turn_right : ∀ a lower b q op right p, lower.precedence < op.precedence →
      motive b op right p (settle b op right p) →
      motive a lower (settle b op right p) q (settle a lower (settle b op right p) q) →
      motive (binary a lower b q) op right p (settle a lower (settle b op right p) q))
    (turn_left : ∀ left op a lower b q p,
      FitsLeft op left → ¬ FitsRight op (binary a lower b q) →
      motive left op a p (settle left op a p) →
      motive (settle left op a p) lower b q (settle (settle left op a p) lower b q) →
      motive left op (binary a lower b q) p (settle (settle left op a p) lower b q))
    (fits : ∀ left op right p, FitsLeft op left → FitsRight op right →
      motive left op right p (binary left op right p))
    (left : Expr) (op : BinaryOp) (right : Expr) (p : Position) :
    motive left op right p (settle left op right p) := by
  induction left, op, right, p using settleCounted.induct with
  | case1 left op right p o ho inner _ hinner _ _ _ ih ih' =>
    obtain ⟨rfl, hlower⟩ := looserLeft?_eq_some ho
    have hin : settle o.right op right p = inner := by rw [settle, hinner]
    rw [settle_turn_right hlower]
    rw [← hin] at ih'
    exact turn_right _ _ _ _ _ _ _ hlower ih ih'
  | case2 left op right p hl o ho inner _ hinner _ _ _ ih ih' =>
    obtain ⟨rfl, _⟩ := looserRight?_eq_some ho
    have hin : settle left op o.left p = inner := by rw [settle, hinner]
    have hfits : FitsLeft op left := looserLeft?_eq_none_iff.1 hl
    have hnot : ¬ FitsRight op (binary o.left o.op o.right o.position) := by
      rw [← looserRight?_eq_none_iff, ho]
      exact Option.some_ne_none o
    rw [settle_turn_left hfits hnot]
    rw [← hin] at ih'
    exact turn_left _ _ _ _ _ _ _ hfits hnot ih ih'
  | case3 left op right p hl hr =>
    have hfits : FitsLeft op left := looserLeft?_eq_none_iff.1 hl
    have hfits' : FitsRight op right := looserRight?_eq_none_iff.1 hr
    rw [settle_of_fits hfits hfits']
    exact fits _ _ _ _ hfits hfits'

/-! ## Regrouping -/

theorem regroup_binary (left : Expr) (op : BinaryOp) (right : Expr) (p : Position) :
    regroup (binary left op right p) = settle (regroup left) op (regroup right) p := by
  rw [regroup]

/-- **Nodes that are not binary are barriers**: their children are regrouped, each by itself. -/
theorem regroup_of_not_binary {e : Expr} (h : e.binaryOp? = none) :
    e.regroup = e.mapChildren regroup := by
  cases e with
  | array elements p => rw [regroup, regroupElements_eq_map, mapChildren]
  | map entries p => rw [regroup, regroupEntries_eq_map, mapChildren]
  | binary left op right p => cases h
  | _ => rw [regroup, mapChildren]

theorem binaryOp?_regroup_of_not_binary {e : Expr} (h : e.binaryOp? = none) :
    e.regroup.binaryOp? = none := by
  rw [regroup_of_not_binary h, binaryOp?_mapChildren, h]

/-- **Induction along regrouping.**  The last argument of the property is the regrouped
expression. -/
theorem regroup_induction {motive : Expr → Expr → Prop}
    (barrier : ∀ e, e.binaryOp? = none → (∀ c ∈ e.children, motive c c.regroup) →
      motive e (e.mapChildren regroup))
    (operation : ∀ left op right p, motive left left.regroup → motive right right.regroup →
      motive (binary left op right p) (settle left.regroup op right.regroup p))
    (e : Expr) : motive e e.regroup := by
  induction e using induction_on_children with
  | node e ih =>
    cases e with
    | binary left op right p =>
      rw [regroup_binary]
      exact operation _ _ _ _ (ih left (by simp [children])) (ih right (by simp [children]))
    | _ =>
      rw [regroup_of_not_binary rfl]
      exact barrier _ rfl ih

end Expr
end ExprLang
