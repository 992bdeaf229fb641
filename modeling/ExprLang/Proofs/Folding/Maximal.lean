import ExprLang.Proofs.Expr.Replacement
import ExprLang.Proofs.Folding.Meaning

/-!
# Folding folds all there is to fold

Folding looks at one node at a time, from the leaves up, and asks whether its children have become
literals.  What comes out can be said without any of this, from the root down and of the expression
as it was: the largest subexpressions that have a *constant value* are replaced by it, and nothing
else is touched.

A subexpression has a constant value if it is no literal, has no landmarks, and evaluates to a value
where nothing is bound (`constantValue?`).  For the two descriptions to meet, a node with a constant
value must have children that folding has made literals; this is where strictness of evaluation
comes in, and `isSome_constantValue?_iff` puts it into a form that speaks of one node and its
children.  From there:

* `isLiteral_fold_iff`: folding ends in a literal just for literals and constant values.
* `fold_eq_replaceTopmost`: folding is the replacement from the top.
* `landmarks_fold`: every variable and every range is still there.

None of these mentions the settings under which folding was done, so they have no influence.
-/

namespace ExprLang
namespace Expr

/-- The value that an expression other than a literal has wherever it is evaluated: it has no
landmarks and is not at fault. -/
def constantValue? (s : Settings) (e : Expr) : Option Value :=
  if e.isLiteral = false ∧ e.landmarks = [] then (e.evaluate s .empty).toOption else none

/-- A literal of the constant value, at the place of the expression. -/
def constantLiteral? (s : Settings) (e : Expr) : Option Expr :=
  (e.constantValue? s).map fun v => literal v e.position

variable {s : Settings} {e : Expr} {v : Value}

theorem constantValue?_eq_some_iff : e.constantValue? s = some v ↔
    e.isLiteral = false ∧ e.landmarks = [] ∧ e.evaluate s .empty = .ok v := by
  have htoOption : (e.evaluate s .empty).toOption = some v ↔ e.evaluate s .empty = .ok v := by
    cases e.evaluate s .empty <;> simp [Except.toOption]
  rw [constantValue?]
  split
  · rename_i h
    rw [htoOption]
    exact ⟨fun hv => ⟨h.1, h.2, hv⟩, fun hv => hv.2.2⟩
  · rename_i h
    exact ⟨nofun, fun hv => absurd ⟨hv.1, hv.2.1⟩ h⟩

theorem isLiteral_of_not_isLeaf (h : e.isLeaf = false) : e.isLiteral = false := by
  cases e with
  | literal v p => cases h
  | _ => rfl

theorem constantValue?_of_isLeaf (h : e.isLeaf = true) : e.constantValue? s = none := by
  cases e with
  | literal v p => rfl
  | reference name p => rfl
  | _ => cases h

/-- The settings have no influence on what is constant. -/
theorem constantValue?_congr (s t : Settings) (e : Expr) :
    e.constantValue? s = e.constantValue? t := by
  rw [constantValue?, constantValue?]
  split
  · rename_i h
    rw [evaluate_of_landmarks_eq_nil h.2 s t .empty .empty]
  · rfl

/-- **A node has a constant value** just if it is no range, each of its children is a literal or
has a constant value, and it is not at fault itself. -/
theorem isSome_constantValue?_iff (hleaf : e.isLeaf = false) : (e.constantValue? s).isSome = true ↔
    (e.binaryOp? ≠ some .range ∧
      ∀ c ∈ e.children, c.isLiteral = true ∨ (c.constantValue? s).isSome = true) ∧
      ∃ v, e.evaluate s .empty = .ok v := by
  constructor
  · intro h
    obtain ⟨v, hv⟩ := Option.isSome_iff_exists.1 h
    obtain ⟨_, hlandmarks, heval⟩ := constantValue?_eq_some_iff.1 hv
    obtain ⟨hroot, hbelow⟩ := landmarks_eq_nil_iff_children.1 hlandmarks
    refine ⟨⟨binaryOp?_ne_range_of_landmark? hroot, fun c hc => ?_⟩, v, heval⟩
    cases hc' : c.isLiteral with
    | true => exact .inl rfl
    | false =>
      -- the child has a value somewhere, and without landmarks that is everywhere
      obtain ⟨env, w, hw⟩ := exists_ok_of_mem_children heval hc
      rw [evaluate_of_landmarks_eq_nil (hbelow c hc) s s env .empty] at hw
      exact .inr (Option.isSome_iff_exists.2
        ⟨w, constantValue?_eq_some_iff.2 ⟨hc', hbelow c hc, hw⟩⟩)
  · rintro ⟨⟨hrange, hchildren⟩, v, heval⟩
    have hbelow : ∀ c ∈ e.children, c.landmarks = [] := by
      intro c hc
      rcases hchildren c hc with hlit | hconst
      · exact landmarks_of_isLiteral hlit
      · obtain ⟨w, hw⟩ := Option.isSome_iff_exists.1 hconst
        exact (constantValue?_eq_some_iff.1 hw).2.1
    have hlandmarks : e.landmarks = [] := landmarks_eq_nil_iff_children.2
      ⟨(landmark?_eq_none_iff_of_not_isLeaf hleaf).2 hrange, hbelow⟩
    exact Option.isSome_iff_exists.2 ⟨v, constantValue?_eq_some_iff.2
      ⟨isLiteral_of_not_isLeaf hleaf, hlandmarks, heval⟩⟩

/-! ## One node -/

/-- A node that may be folded and has a value becomes a literal of that value. -/
theorem foldNode_of_ok (h : e.isFoldable = true) (hv : e.evaluate s .empty = .ok v) :
    foldNode s e = literal v e.position := by
  have hplaced : v.withPosition e.position = v := by
    have hlocated := located_evaluate s e .empty
    rw [hv, Outcome.located_ok] at hlocated
    exact Except.ok.inj hlocated
  rw [foldNode, if_pos h, hv]
  show constant v e.position = _
  rw [constant, hplaced]

theorem isLiteral_foldNode_iff (hleaf : e.isLeaf = false) : (foldNode s e).isLiteral = true ↔
    e.isFoldable = true ∧ ∃ v, e.evaluate s .empty = .ok v := by
  have hliteral : e.isLiteral = false := isLiteral_of_not_isLeaf hleaf
  rw [foldNode]
  split
  · rename_i hfoldable
    split
    · rename_i v hv
      exact ⟨fun _ => ⟨hfoldable, v, hv⟩, fun _ => rfl⟩
    · rename_i f hf
      rw [hliteral]
      refine iff_of_false Bool.false_ne_true ?_
      rintro ⟨_, v, hv⟩
      rw [hf] at hv
      cases hv
  · rename_i hfoldable
    rw [hliteral]
    exact iff_of_false Bool.false_ne_true fun h => hfoldable h.1

/-- A node that does not become a literal stays as it is. -/
theorem foldNode_eq_self (h : (foldNode s e).isLiteral = false) : foldNode s e = e := by
  unfold foldNode at h ⊢
  split
  · rename_i hfoldable
    rw [if_pos hfoldable] at h
    split
    · rename_i v hv
      rw [hv] at h
      cases h
    · rfl
  · rfl

/-! ## The whole expression -/

/-- **Folding ends in a literal just for literals and for what has a constant value.** -/
theorem isLiteral_fold_iff (s : Settings) (e : Expr) : (e.fold s).isLiteral = true ↔
    e.isLiteral = true ∨ (e.constantValue? s).isSome = true := by
  induction e using fold_induction (s := s) with
  | leaf e hleaf =>
    rw [constantValue?_of_isLeaf hleaf]
    simp
  | node e hleaf ih =>
    have hleaf' : (e.mapChildren (fold s)).isLeaf = false := by rw [isLeaf_mapChildren, hleaf]
    have hfoldable : (e.mapChildren (fold s)).isFoldable = true ↔ e.binaryOp? ≠ some .range ∧
        ∀ c ∈ e.children, c.isLiteral = true ∨ (c.constantValue? s).isSome = true := by
      rw [isFoldable_iff, binaryOp?_mapChildren, children_mapChildren, List.forall_mem_map]
      exact and_congr_right fun _ => forall₂_congr ih
    rw [isLiteral_foldNode_iff hleaf', hfoldable, evaluate_mapChildren_fold,
      isLiteral_of_not_isLeaf hleaf, isSome_constantValue?_iff hleaf]
    simp

/-- What has a constant value becomes a literal of it. -/
theorem fold_of_constantValue?_eq_some (h : e.constantValue? s = some v) :
    e.fold s = literal v e.position := by
  have hleaf : e.isLeaf = false := by
    rw [Bool.eq_false_iff]
    intro hleaf
    rw [constantValue?_of_isLeaf hleaf] at h
    cases h
  have hleaf' : (e.mapChildren (fold s)).isLeaf = false := by rw [isLeaf_mapChildren, hleaf]
  have hlit : (foldNode s (e.mapChildren (fold s))).isLiteral = true := by
    rw [← fold_of_not_isLeaf s hleaf, isLiteral_fold_iff, h]
    exact .inr rfl
  have hfoldable := ((isLiteral_foldNode_iff hleaf').1 hlit).1
  have heval : (e.mapChildren (fold s)).evaluate s .empty = .ok v := by
    rw [evaluate_mapChildren_fold]
    exact (constantValue?_eq_some_iff.1 h).2.2
  rw [fold_of_not_isLeaf s hleaf, foldNode_of_ok hfoldable heval, position_mapChildren]

/-- A node without a constant value stays, with its children folded. -/
theorem fold_of_constantValue?_eq_none (hleaf : e.isLeaf = false) (h : e.constantValue? s = none) :
    e.fold s = e.mapChildren (fold s) := by
  have hlit : (foldNode s (e.mapChildren (fold s))).isLiteral = false := by
    rw [← fold_of_not_isLeaf s hleaf, Bool.eq_false_iff, Ne, isLiteral_fold_iff,
      isLiteral_of_not_isLeaf hleaf, h]
    simp
  rw [fold_of_not_isLeaf s hleaf, foldNode_eq_self hlit]

/-- **Induction along folding, by what is constant.**  The last argument of the property is the
folded expression. -/
theorem constant_induction {motive : Expr → Expr → Prop}
    (leaf : ∀ e, e.isLeaf = true → motive e e)
    (constant : ∀ e v, e.constantValue? s = some v → motive e (literal v e.position))
    (kept : ∀ e, e.isLeaf = false → e.constantValue? s = none →
      (∀ c ∈ e.children, motive c (c.fold s)) → motive e (e.mapChildren (fold s)))
    (e : Expr) : motive e (e.fold s) := by
  induction e using fold_induction (s := s) with
  | leaf e hleaf => exact leaf e hleaf
  | node e hleaf ih =>
    rw [← fold_of_not_isLeaf s hleaf]
    cases h : e.constantValue? s with
    | some v =>
      rw [fold_of_constantValue?_eq_some h]
      exact constant e v h
    | none =>
      rw [fold_of_constantValue?_eq_none hleaf h]
      exact kept e hleaf h ih

/-- **Folding replaces the largest parts that have a constant value**, and nothing else. -/
theorem fold_eq_replaceTopmost (s : Settings) (e : Expr) :
    e.fold s = e.replaceTopmost (constantLiteral? s) := by
  induction e using constant_induction (s := s) with
  | leaf e hleaf =>
    have hpick : constantLiteral? s e = none := by
      rw [constantLiteral?, constantValue?_of_isLeaf hleaf, Option.map_none]
    rw [replaceTopmost_of_eq_none hpick, mapChildren_of_isLeaf _ hleaf]
  | constant e v h =>
    have hpick : constantLiteral? s e = some (literal v e.position) := by
      rw [constantLiteral?, h, Option.map_some]
    rw [replaceTopmost_of_eq_some hpick]
  | kept e hleaf h ih =>
    have hpick : constantLiteral? s e = none := by
      rw [constantLiteral?, h, Option.map_none]
    rw [replaceTopmost_of_eq_none hpick]
    exact mapChildren_congr ih

/-- **Every variable and every range stays**, where it was. -/
theorem landmarks_fold (s : Settings) (e : Expr) : (e.fold s).landmarks = e.landmarks := by
  induction e using constant_induction (s := s) with
  | leaf e _ => rfl
  | constant e v h => rw [(constantValue?_eq_some_iff.1 h).2.1, landmarks_of_isLiteral rfl]
  | kept e _ _ ih => exact landmarks_mapChildren ih

/-- **Folding folds all there is to fold, and only that.**  The folded expression is the expression
with its largest parts of constant value replaced by literals of these values; it is a literal just
if the expression is one or has a constant value; its landmarks are those of the expression; and it
is the same under all settings. -/
theorem fold_eq_replaceTopmost_and_isLiteral_iff (s t : Settings) (e : Expr) :
    e.fold s = e.replaceTopmost (constantLiteral? t) ∧
      ((e.fold s).isLiteral = true ↔
        e.isLiteral = true ∨ (e.constantValue? t).isSome = true) ∧
      (e.fold s).landmarks = e.landmarks ∧ e.fold s = e.fold t := by
  have hsettings : constantLiteral? t = constantLiteral? s := by
    funext n
    rw [constantLiteral?, constantLiteral?, constantValue?_congr t s]
  refine ⟨?_, ?_, landmarks_fold s e, ?_⟩
  · rw [hsettings, fold_eq_replaceTopmost]
  · rw [constantValue?_congr t s]
    exact isLiteral_fold_iff s e
  · rw [fold_eq_replaceTopmost s, fold_eq_replaceTopmost t, hsettings]

end Expr
end ExprLang
