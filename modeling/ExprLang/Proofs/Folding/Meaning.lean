import ExprLang.Folding
import ExprLang.Proofs.Evaluation.Success

/-!
# Folding keeps the meaning

Folding evaluates parts of an expression ahead of time: without variables, outside of every
subscript, and under the settings of whoever folds.  Later the expression is evaluated in some
environment, inside of subscripts, and under other settings.  That this makes no difference has
two reasons.

* A node that may be folded looks at nothing of this.  Its children are literals, and it is
  neither a reference nor a range, so it has no landmarks (`evaluate_of_isFoldable`).
* What it gave stands at its position, as what the literal in its place gives does
  (`evaluate_foldNode`).

A node that has no value is left alone, with its children folded; there, evaluation is
compositional, and `evaluate_mapChildren_fold` carries the two facts up from the leaves.  Both cases
come together in `evaluate_fold`: the outcome is the same, be it a value with all positions in it or
a fault with its position.
-/

namespace ExprLang
namespace Expr

/-- Whether an expression is a literal or a reference: folding leaves these as they are. -/
def isLeaf : Expr → Bool
  | literal _ _ | reference _ _ => true
  | _ => false

@[simp] theorem isLeaf_mapChildren (f : Expr → Expr) (e : Expr) :
    (e.mapChildren f).isLeaf = e.isLeaf := by
  cases e <;> rfl

/-- At a leaf, what holds of the node holds everywhere. -/
theorem everywhere_of_isLeaf {P : Expr → Prop} {e : Expr} (h : e.isLeaf = true) (hroot : P e) :
    e.Everywhere P := by
  refine .node hroot fun c hc => ?_
  cases e with
  | literal v p => exact absurd hc List.not_mem_nil
  | reference name p => exact absurd hc List.not_mem_nil
  | _ => cases h

theorem mapChildren_of_isLeaf {e : Expr} (f : Expr → Expr) (h : e.isLeaf = true) :
    e.mapChildren f = e := by
  cases e with
  | literal v p => rfl
  | reference name p => rfl
  | _ => cases h

/-! ## The walk -/

theorem foldElements_eq_map (s : Settings) (elements : List Expr) :
    foldElements s elements = elements.map (fold s) := by
  induction elements with
  | nil => rfl
  | cons e rest ih => rw [foldElements, ih, List.map_cons]

theorem foldEntries_eq_map (s : Settings) (entries : List (String × Expr)) :
    foldEntries s entries = entries.map fun e => (e.1, fold s e.2) := by
  induction entries with
  | nil => rfl
  | cons e rest ih => rw [foldEntries, ih, List.map_cons]

theorem fold_of_isLeaf {e : Expr} (s : Settings) (h : e.isLeaf = true) : e.fold s = e := by
  cases e with
  | literal v p => rw [fold]
  | reference name p => rw [fold]
  | _ => cases h

/-- A node that is no leaf has its children folded first. -/
theorem fold_of_not_isLeaf {e : Expr} (s : Settings) (h : e.isLeaf = false) :
    e.fold s = foldNode s (e.mapChildren (fold s)) := by
  cases e with
  | literal v p => cases h
  | reference name p => cases h
  | array elements p => rw [fold, foldElements_eq_map, mapChildren]
  | map entries p => rw [fold, foldEntries_eq_map, mapChildren]
  | _ => rw [fold, mapChildren]

/-- **Induction along folding.**  The last argument of the property is the folded expression. -/
theorem fold_induction {s : Settings} {motive : Expr → Expr → Prop}
    (leaf : ∀ e, e.isLeaf = true → motive e e)
    (node : ∀ e, e.isLeaf = false → (∀ c ∈ e.children, motive c (c.fold s)) →
      motive e (foldNode s (e.mapChildren (fold s))))
    (e : Expr) : motive e (e.fold s) := by
  induction e using induction_on_children with
  | node e ih =>
    cases h : e.isLeaf with
    | true =>
      rw [fold_of_isLeaf s h]
      exact leaf e h
    | false =>
      rw [fold_of_not_isLeaf s h]
      exact node e h ih

/-! ## One node -/

theorem isFoldable_iff {e : Expr} :
    e.isFoldable = true ↔ e.binaryOp? ≠ some .range ∧ ∀ c ∈ e.children, c.isLiteral = true := by
  rw [isFoldable, Bool.and_eq_true, bne_iff_ne, List.all_eq_true]

theorem landmark?_eq_none_iff_of_not_isLeaf {e : Expr} (h : e.isLeaf = false) :
    e.landmark? = none ↔ e.binaryOp? ≠ some .range := by
  cases e with
  | literal v p => cases h
  | reference name p => cases h
  | binary left op right p => cases op <;> simp [landmark?, binaryOp?]
  | _ => simp [landmark?, binaryOp?]

/-- What may be folded has no landmarks: it is none itself, and its children are literals. -/
theorem landmarks_of_isFoldable {e : Expr} (h : e.isFoldable = true) (hleaf : e.isLeaf = false) :
    e.landmarks = [] := by
  obtain ⟨hrange, hliterals⟩ := isFoldable_iff.1 h
  exact landmarks_eq_nil_iff_children.2 ⟨(landmark?_eq_none_iff_of_not_isLeaf hleaf).2 hrange,
    fun c hc => landmarks_of_isLiteral (hliterals c hc)⟩

/-- **A node that may be folded gives the same everywhere**: in every environment and under all
settings. -/
theorem evaluate_of_isFoldable {e : Expr} (h : e.isFoldable = true) (hleaf : e.isLeaf = false)
    (s t : Settings) (env env' : Environment) : e.evaluate s env = e.evaluate t env' :=
  evaluate_of_landmarks_eq_nil (landmarks_of_isFoldable h hleaf) s t env env'

/-- **Folding a node does not change what it gives.** -/
theorem evaluate_foldNode {e : Expr} (hleaf : e.isLeaf = false) (s t : Settings)
    (env : Environment) : (foldNode s e).evaluate t env = e.evaluate t env := by
  rw [foldNode]
  split
  · rename_i hfoldable
    split
    · rename_i v hv
      have heval : e.evaluate t env = .ok v := by
        rw [evaluate_of_isFoldable hfoldable hleaf t s env .empty, hv]
      rw [evaluate_constant, ← heval, located_evaluate]
    · rfl
  · rfl

/-! ## The whole expression -/

/-- **Folding the children of a node does not change what it gives.** -/
theorem evaluate_mapChildren_fold (s t : Settings) (e : Expr) (env : Environment) :
    (e.mapChildren (fold s)).evaluate t env = e.evaluate t env := by
  induction e using induction_on_children generalizing env with
  | node e ih =>
    have hindex : ∀ env env' v, env = env' →
        Environment.withLastIndex env v = Environment.withLastIndex env' v := by
      rintro env _ v rfl
      rfl
    have hchildren : ∀ c ∈ e.children, ∀ env env', env = env' →
        (c.fold s).evaluate t env = c.evaluate t env' := by
      rintro c hc env _ rfl
      cases hleaf : c.isLeaf with
      | true => rw [fold_of_isLeaf s hleaf]
      | false =>
        rw [fold_of_not_isLeaf s hleaf, evaluate_foldNode (by rw [isLeaf_mapChildren, hleaf])]
        exact ih c hc env
    exact evaluate_mapChildren hindex (fun _ _ _ => rfl) (fun _ _ => rfl) hchildren rfl

/-- **Folding keeps the meaning.**  Whoever folded, under whatever settings, the folded expression
gives what the expression gives, in every environment and under all settings. -/
theorem evaluate_fold (s t : Settings) (e : Expr) (env : Environment) :
    (e.fold s).evaluate t env = e.evaluate t env := by
  cases hleaf : e.isLeaf with
  | true => rw [fold_of_isLeaf s hleaf]
  | false =>
    have hleaf' : (e.mapChildren (fold s)).isLeaf = false := by rw [isLeaf_mapChildren, hleaf]
    rw [fold_of_not_isLeaf s hleaf, evaluate_foldNode hleaf', evaluate_mapChildren_fold]

end Expr
end ExprLang
