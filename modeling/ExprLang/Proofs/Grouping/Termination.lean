import ExprLang.Proofs.Grouping.Settled

/-!
# Runs of settling

A turn leaves two nodes to settle: the inner one, which is a part of the whole, and the outer one, which is
as large as the whole was.  Nothing in the sizes says that settling the outer node comes to an end, and a
turn there might undo the one before.  Where both operands are settled, as they are whenever a node is
settled on the way up from the leaves, this does not happen.

A run is written down as what it is, a finite tree: `SettlingRun` has a node for each node that is settled,
below it the runs for the inner and the outer node, and it lists the turns at the root, from the first to the
last.  `RegroupingRun` is the same for a whole expression.

* After a turn to the left the root is settled (`fits_after_turn_left`).  What comes to the top is no tighter
  than all that goes below it on the left, since a settled node is as loose as its top operator
  (`fitsLeft_settle`), and its right operand was settled below it before.
* After a turn to the right the left operand of the new root was settled below it before.  So there is no
  other turn to the right; there may be one to the left, and that is the last one (`SettlingRun.rest_eq`).
* Every node has a run, and every expression has one (`exists_settlingRun`, `regroupingRun_regroup`), and
  runs end in what the functions give.
-/

namespace ExprLang
namespace Expr

/-! ## What is loosest in a settled node -/

theorem FitsLeft.of_le {k op : BinaryOp} {e : Expr} (h : FitsLeft op e)
    (hle : k.precedence ≤ op.precedence) : FitsLeft k e :=
  fun child hchild => Nat.le_trans hle (h child hchild)

theorem FitsRight.fitsLeft {op : BinaryOp} {e : Expr} (h : FitsRight op e) : FitsLeft op e :=
  fun child hchild => (h child hchild).1

/-- An operand that does not fit on the right is an operation that binds no tighter. -/
theorem le_of_not_fitsRight {op lower : BinaryOp} {a b : Expr} {q : Position}
    (h : ¬ FitsRight op (binary a lower b q)) : lower.precedence ≤ op.precedence := by
  rcases not_fitsRight_binary_iff.1 h with hlt | hregroupable
  · exact Nat.le_of_lt hlt
  · exact Nat.le_of_eq (precedence_eq_of_regroupable hregroupable)

/-- **Settling brings nothing to the top that is looser** than the operator and the operands were. -/
theorem fitsLeft_settle {k : BinaryOp} {left : Expr} {op : BinaryOp} {right : Expr} {p : Position}
    (hleft : left.Settled) (hright : right.Settled) (hop : k.precedence ≤ op.precedence)
    (hl : FitsLeft k left) (hr : FitsLeft k right) : FitsLeft k (settle left op right p) := by
  induction left, op, right, p using settle_induction with
  | turn_right a lower b q op right p _ ih ih' =>
    obtain ⟨⟨ha, hb⟩, hasettled, hbsettled⟩ := settled_binary_iff.1 hleft
    have hlower : k.precedence ≤ lower.precedence := fitsLeft_binary_iff.1 hl
    have hinner := ih hbsettled hright hop (hb.fitsLeft.of_le hlower) hr
    exact ih' hasettled (settled_settle hbsettled hright) hlower (ha.of_le hlower) hinner
  | turn_left left op a lower b q p _ _ ih ih' =>
    obtain ⟨⟨ha, hb⟩, hasettled, hbsettled⟩ := settled_binary_iff.1 hright
    have hlower : k.precedence ≤ lower.precedence := fitsLeft_binary_iff.1 hr
    have hinner := ih hleft hasettled hop hl (ha.of_le hlower)
    exact ih' (settled_settle hleft hasettled) hbsettled hlower hinner (hb.fitsLeft.of_le hlower)
  | fits left op right p _ _ => exact fitsLeft_binary_iff.2 hop

/-- **After a turn to the left the root is settled.** -/
theorem fits_after_turn_left {left : Expr} {op : BinaryOp} {a : Expr} {lower : BinaryOp} {b : Expr}
    {q p : Position} (hleft : left.Settled) (hright : (binary a lower b q).Settled)
    (hl : FitsLeft op left) (hr : ¬ FitsRight op (binary a lower b q)) :
    FitsLeft lower (settle left op a p) ∧ FitsRight lower b := by
  obtain ⟨⟨ha, hb⟩, hasettled, _⟩ := settled_binary_iff.1 hright
  have hle := le_of_not_fitsRight hr
  exact ⟨fitsLeft_settle hleft hasettled hle (hl.of_le hle) ha, hb⟩

/-! ## Runs -/

/-- A turn at the root of a node. -/
inductive Turn where
  /-- The left operand comes to the top. -/
  | right
  /-- The right operand comes to the top. -/
  | left
  deriving DecidableEq, Repr

/-- A run that settles the node `left op right` at a position.  The turns are those at the root, in order,
and the last expression is what the run ends in. -/
inductive SettlingRun : Expr → BinaryOp → Expr → Position → List Turn → Expr → Prop where
  | fits {left : Expr} {op : BinaryOp} {right : Expr} {p : Position} (hl : FitsLeft op left)
      (hr : FitsRight op right) : SettlingRun left op right p [] (binary left op right p)
  | turn_right {a : Expr} {lower : BinaryOp} {b : Expr} {q : Position} {op : BinaryOp} {right : Expr}
      {p : Position} {turns rest : List Turn} {inner outer : Expr}
      (h : lower.precedence < op.precedence) (first : SettlingRun b op right p turns inner)
      (second : SettlingRun a lower inner q rest outer) :
      SettlingRun (binary a lower b q) op right p (.right :: rest) outer
  | turn_left {left : Expr} {op : BinaryOp} {a : Expr} {lower : BinaryOp} {b : Expr} {q p : Position}
      {turns rest : List Turn} {inner outer : Expr} (hl : FitsLeft op left)
      (hr : ¬ FitsRight op (binary a lower b q)) (first : SettlingRun left op a p turns inner)
      (second : SettlingRun inner lower b q rest outer) :
      SettlingRun left op (binary a lower b q) p (.left :: rest) outer

/-- A run that regroups an expression: its children first, and then the node, if it is binary. -/
inductive RegroupingRun : Expr → Expr → Prop where
  | barrier {e : Expr} (result : Expr → Expr) (h : e.binaryOp? = none)
      (below : ∀ c ∈ e.children, RegroupingRun c (result c)) :
      RegroupingRun e (e.mapChildren result)
  | operation {left left' : Expr} {op : BinaryOp} {right right' : Expr} {p : Position}
      {turns : List Turn} {e : Expr} (hleft : RegroupingRun left left')
      (hright : RegroupingRun right right') (node : SettlingRun left' op right' p turns e) :
      RegroupingRun (binary left op right p) e

/-- **Every node has a run.** -/
theorem exists_settlingRun (left : Expr) (op : BinaryOp) (right : Expr) (p : Position) :
    ∃ turns, SettlingRun left op right p turns (settle left op right p) := by
  induction left, op, right, p using settle_induction with
  | turn_right a lower b q op right p h ih ih' =>
    obtain ⟨_, first⟩ := ih
    obtain ⟨_, second⟩ := ih'
    exact ⟨_, .turn_right h first second⟩
  | turn_left left op a lower b q p hl hr ih ih' =>
    obtain ⟨_, first⟩ := ih
    obtain ⟨_, second⟩ := ih'
    exact ⟨_, .turn_left hl hr first second⟩
  | fits left op right p hl hr => exact ⟨_, .fits hl hr⟩

namespace SettlingRun
variable {left : Expr} {op : BinaryOp} {right : Expr} {p : Position} {turns : List Turn} {e : Expr}

/-- Runs end in the settled node. -/
theorem eq_settle (h : SettlingRun left op right p turns e) : e = settle left op right p := by
  induction h with
  | fits hl hr => rw [settle_of_fits hl hr]
  | turn_right h _ _ ih ih' => rw [settle_turn_right h, ← ih, ih']
  | turn_left hl hr _ _ ih ih' => rw [settle_turn_left hl hr, ← ih, ih']

/-- Where both operands fit there is no turn. -/
theorem turns_eq_nil (h : SettlingRun left op right p turns e) (hl : FitsLeft op left)
    (hr : FitsRight op right) : turns = [] := by
  cases h with
  | fits _ _ => rfl
  | turn_right hlt _ _ => exact absurd (fitsLeft_binary_iff.1 hl) (Nat.not_le.2 hlt)
  | turn_left _ hnot _ _ => exact absurd hr hnot

/-- Where the left operand fits and both are settled there is at most one turn, to the left. -/
theorem turns_of_fitsLeft (h : SettlingRun left op right p turns e) (hl : FitsLeft op left)
    (hleft : left.Settled) (hright : right.Settled) : turns = [] ∨ turns = [.left] := by
  cases h with
  | fits _ _ => exact .inl rfl
  | turn_right hlt _ _ => exact absurd (fitsLeft_binary_iff.1 hl) (Nat.not_le.2 hlt)
  | turn_left _ hr first second =>
    obtain ⟨hl', hr'⟩ := fits_after_turn_left hleft hright hl hr
    rw [← first.eq_settle] at hl'
    rw [second.turns_eq_nil hl' hr']
    exact .inr rfl

/-- **Turns at the root do not go on.**  Between settled operands a turn to the left is the last one, and
after one to the right there is at most one to the left. -/
theorem rest_eq (h : SettlingRun left op right p turns e) (hleft : left.Settled)
    (hright : right.Settled) :
    (∀ rest, turns = .left :: rest → rest = []) ∧
      ∀ rest, turns = .right :: rest → rest = [] ∨ rest = [.left] := by
  cases h with
  | fits _ _ => exact ⟨nofun, nofun⟩
  | turn_right _ first second =>
    refine ⟨nofun, ?_⟩
    rintro _ ⟨⟩
    obtain ⟨⟨ha, _⟩, hasettled, hbsettled⟩ := settled_binary_iff.1 hleft
    refine second.turns_of_fitsLeft ha hasettled ?_
    rw [first.eq_settle]
    exact settled_settle hbsettled hright
  | turn_left hl hr first second =>
    refine ⟨?_, nofun⟩
    rintro _ ⟨⟩
    obtain ⟨hl', hr'⟩ := fits_after_turn_left hleft hright hl hr
    rw [← first.eq_settle] at hl'
    exact second.turns_eq_nil hl' hr'

end SettlingRun

/-- **Every expression has a run.** -/
theorem regroupingRun_regroup (e : Expr) : RegroupingRun e e.regroup := by
  induction e using regroup_induction with
  | barrier e h ih => exact .barrier regroup h ih
  | operation left op right p ih ih' =>
    obtain ⟨_, node⟩ := exists_settlingRun left.regroup op right.regroup p
    exact .operation ih ih' node

theorem RegroupingRun.eq_regroup {e e' : Expr} (h : RegroupingRun e e') : e' = e.regroup := by
  induction h with
  | barrier result h _ ih => rw [regroup_of_not_binary h, mapChildren_congr ih]
  | operation _ _ node ih ih' => rw [regroup_binary, ← ih, ← ih', node.eq_settle]

/-- **Regrouping comes to an end, since turns do not go on.**  A node between settled operands has a run, and
in each of its runs a turn to the left at the root is the last one there, and a turn to the right is followed
by one to the left at most.  So every expression has a run, and it ends in the regrouped expression; that is
settled, so all the nodes on the way up are such nodes. -/
theorem settlingRun_turns_and_regroupingRun :
    (∀ left op right p, left.Settled → right.Settled →
      (∃ turns, SettlingRun left op right p turns (settle left op right p)) ∧
      ∀ turns e, SettlingRun left op right p turns e →
        e = settle left op right p ∧
        (∀ rest, turns = .left :: rest → rest = []) ∧
        ∀ rest, turns = .right :: rest → rest = [] ∨ rest = [.left]) ∧
    ∀ e : Expr, e.regroup.Settled ∧ RegroupingRun e e.regroup ∧
      ∀ e', RegroupingRun e e' → e' = e.regroup := by
  refine ⟨fun left op right p hleft hright => ?_, fun e => ?_⟩
  · exact ⟨exists_settlingRun left op right p,
      fun turns e h => ⟨h.eq_settle, h.rest_eq hleft hright⟩⟩
  · exact ⟨settled_regroup e, regroupingRun_regroup e, fun e' h => h.eq_regroup⟩

theorem settled_reference (name : String) (p : Position) : (reference name p).Settled :=
  settled_of_children rfl fun _ hc => absurd hc List.not_mem_nil

/-- `(a + b) * (c || d)`: at the root there is a turn to the right, and then one to the left. -/
theorem settlingRun_turns_of_sum_times_disjunction :
    let a := reference "a" ⟨1, 1⟩
    let b := reference "b" ⟨1, 3⟩
    let c := reference "c" ⟨1, 5⟩
    let d := reference "d" ⟨1, 8⟩
    let left := binary a .add b ⟨1, 2⟩
    let right := binary c .or d ⟨1, 6⟩
    let e := binary (binary a .add (binary b .mul c ⟨1, 4⟩) ⟨1, 2⟩) .or d ⟨1, 6⟩
    left.Settled ∧ right.Settled ∧
      SettlingRun left .mul right ⟨1, 4⟩ [.right, .left] e ∧ e = settle left .mul right ⟨1, 4⟩ ∧
      ∀ rest, [Turn.right, .left] = .right :: rest → rest = [] ∨ rest = [.left] := by
  intro a b c d left right e
  have hleft : left.Settled := settled_binary_iff.2
    ⟨⟨fitsLeft_of_not_binary rfl, fitsRight_of_not_binary rfl⟩, settled_reference _ _,
      settled_reference _ _⟩
  have hright : right.Settled := settled_binary_iff.2
    ⟨⟨fitsLeft_of_not_binary rfl, fitsRight_of_not_binary rfl⟩, settled_reference _ _,
      settled_reference _ _⟩
  have hproduct : SettlingRun b .mul c ⟨1, 4⟩ [] (binary b .mul c ⟨1, 4⟩) :=
    .fits (fitsLeft_of_not_binary rfl) (fitsRight_of_not_binary rfl)
  have hinner : SettlingRun b .mul right ⟨1, 4⟩ [.left]
      (binary (binary b .mul c ⟨1, 4⟩) .or d ⟨1, 6⟩) :=
    .turn_left (fitsLeft_of_not_binary rfl) (not_fitsRight_binary_iff.2 (.inl (by decide))) hproduct
      (.fits (fitsLeft_binary_iff.2 (by decide)) (fitsRight_of_not_binary rfl))
  have hsum : SettlingRun a .add (binary b .mul c ⟨1, 4⟩) ⟨1, 2⟩ []
      (binary a .add (binary b .mul c ⟨1, 4⟩) ⟨1, 2⟩) :=
    .fits (fitsLeft_of_not_binary rfl) (fitsRight_binary_iff.2 (by decide))
  have houter : SettlingRun a .add (binary (binary b .mul c ⟨1, 4⟩) .or d ⟨1, 6⟩) ⟨1, 2⟩ [.left] e :=
    .turn_left (fitsLeft_of_not_binary rfl) (not_fitsRight_binary_iff.2 (.inl (by decide))) hsum
      (.fits (fitsLeft_binary_iff.2 (by decide)) (fitsRight_of_not_binary rfl))
  have hrun : SettlingRun left .mul right ⟨1, 4⟩ [.right, .left] e :=
    .turn_right (by decide) hinner houter
  obtain ⟨hnode, -⟩ := settlingRun_turns_and_regroupingRun
  obtain ⟨-, hruns⟩ := hnode left .mul right ⟨1, 4⟩ hleft hright
  obtain ⟨heq, -, hrest⟩ := hruns _ _ hrun
  exact ⟨hleft, hright, hrun, heq, hrest⟩

end Expr
end ExprLang
