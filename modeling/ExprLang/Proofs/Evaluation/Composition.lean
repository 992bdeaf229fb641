import ExprLang.Evaluation
import ExprLang.Proofs.Expr.Children

/-!
# Evaluation node by node

What a node gives depends on its children by what they give, and on nothing else that is below
it.  The statement is `evaluate_mapChildren`, and it is made so that one form serves all who
change expressions, environments or settings:

* a function is applied to the children, and each result evaluates as the child does;
* the two sides are evaluated under two settings, which must agree on the operator of the node
  only;
* they are evaluated in two environments, in a relation that binding the last index in both
  preserves, since that is how the environment changes on the way down.  A node that is a
  reference must read the same in both.

Where only the children change it reads `evaluate_mapChildren_eq`, and where the children do not
change, only their surroundings, `evaluate_congr_children`.

The other general fact is that a node leaves its mark: what it gives is located at its position
already, and locating it there once more changes nothing (`located_evaluate`).
-/

namespace ExprLang

theorem Fault.locate_locate (f : Fault) (p : Position) : (f.locate p).locate p = f.locate p := by
  cases hf : f.position with
  | some q =>
    have hlocate : f.locate p = f := by rw [Fault.locate, hf]
    rw [hlocate, hlocate]
  | none =>
    by_cases hp : p.known = true
    · have hlocate : f.locate p = { f with position := some p } := by
        rw [Fault.locate, hf, if_pos hp]
      rw [hlocate]
      rfl
    · have hlocate : f.locate p = f := by
        rw [Fault.locate, hf, if_neg hp]
      rw [hlocate, hlocate]

theorem Outcome.located_located (p : Position) (o : Outcome Value) :
    Outcome.located p (Outcome.located p o) = Outcome.located p o := by
  cases o with
  | ok v => rfl
  | error f => rw [located_error, located_error, Fault.locate_locate]

namespace Expr

/-- **What a node gives stands at its position.** -/
theorem located_evaluate (s : Settings) (e : Expr) (env : Environment) :
    Outcome.located e.position (e.evaluate s env) = e.evaluate s env := by
  cases e with
  | _ => rw [evaluate, position, Outcome.located_located]

theorem evaluate_constant (s : Settings) (v : Value) (p : Position) (env : Environment) :
    (constant v p).evaluate s env = Outcome.located p (.ok v) := by
  rw [constant, evaluate]
  rfl

/-! ## Children that evaluate alike -/

section
variable {s t : Settings} {f : Expr → Expr} {env env' : Environment}

theorem evaluateElements_map {elements : List Expr}
    (h : ∀ e ∈ elements, (f e).evaluate s env = e.evaluate t env') :
    evaluateElements s (elements.map f) env = evaluateElements t elements env' := by
  induction elements with
  | nil => rfl
  | cons e rest ih =>
    have hhead : (f e).evaluate s env = e.evaluate t env' := h e List.mem_cons_self
    have htail := ih fun c hc => h c (List.mem_cons_of_mem _ hc)
    rw [List.map_cons, evaluateElements, evaluateElements, hhead, htail]

theorem evaluateEntries_map {entries : List (String × Expr)}
    (h : ∀ e ∈ entries, (f e.2).evaluate s env = e.2.evaluate t env') :
    evaluateEntries s (entries.map fun e => (e.1, f e.2)) env = evaluateEntries t entries env' := by
  induction entries with
  | nil => rfl
  | cons e rest ih =>
    have hhead : (f e.2).evaluate s env = e.2.evaluate t env' := h e List.mem_cons_self
    have htail := ih fun c hc => h c (List.mem_cons_of_mem _ hc)
    rw [List.map_cons, evaluateEntries, evaluateEntries, hhead, htail]

/-- **Evaluation is compositional**: a node whose children evaluate alike evaluates alike. -/
theorem evaluate_mapChildren {R : Environment → Environment → Prop}
    (hindex : ∀ env env' v, R env env' → R (env.withLastIndex v) (env'.withLastIndex v))
    {e : Expr} (hread : ∀ name p, e = reference name p → env.read name = env'.read name)
    (hop : ∀ op, e.binaryOp? = some op → op.apply s = op.apply t)
    (hchildren : ∀ c ∈ e.children, ∀ env env', R env env' →
      (f c).evaluate s env = c.evaluate t env')
    (henv : R env env') : (e.mapChildren f).evaluate s env = e.evaluate t env' := by
  cases e with
  | literal v p => rw [mapChildren, evaluate, evaluate]
  | reference name p => rw [mapChildren, evaluate, evaluate, hread name p rfl]
  | array elements p =>
    have helements : evaluateElements s (elements.map f) env = evaluateElements t elements env' :=
      evaluateElements_map fun c hc => hchildren c hc env env' henv
    rw [mapChildren, evaluate, evaluate, helements]
  | map entries p =>
    have hentries : evaluateEntries s (entries.map fun e => (e.1, f e.2)) env =
        evaluateEntries t entries env' :=
      evaluateEntries_map fun c hc => hchildren c.2 (List.mem_map_of_mem hc) env env' henv
    rw [mapChildren, evaluate, evaluate, hentries]
  | unary op operand p =>
    have hoperand := hchildren operand (by simp [children]) env env' henv
    rw [mapChildren, evaluate, evaluate, hoperand]
  | subscript indexable index p =>
    have hindexable := hchildren indexable (by simp [children]) env env' henv
    have hscope : ∀ v, (f index).evaluate s (env.withLastIndex v) =
        index.evaluate t (env'.withLastIndex v) :=
      fun v => hchildren index (by simp [children]) _ _ (hindex env env' v henv)
    simp only [mapChildren, evaluate, hindexable, hscope]
  | binary left op right p =>
    have hleft := hchildren left (by simp [children]) env env' henv
    have hright := hchildren right (by simp [children]) env env' henv
    rw [mapChildren, evaluate, evaluate, hleft, hright, hop op rfl]

/-- Changing the children so that each gives what it gave changes nothing of what the node gives. -/
theorem evaluate_mapChildren_eq {e : Expr}
    (h : ∀ c ∈ e.children, ∀ env, (f c).evaluate s env = c.evaluate s env) :
    (e.mapChildren f).evaluate s env = e.evaluate s env := by
  have hindex : ∀ env env' v, env = env' →
      Environment.withLastIndex env v = Environment.withLastIndex env' v := by
    rintro env _ v rfl
    rfl
  have hchildren : ∀ c ∈ e.children, ∀ env env', env = env' →
      (f c).evaluate s env = c.evaluate s env' := by
    rintro c hc env _ rfl
    exact h c hc env
  exact evaluate_mapChildren hindex (fun _ _ _ => rfl) (fun _ _ => rfl) hchildren rfl

/-- The same node in two environments, or under two settings. -/
theorem evaluate_congr_children {R : Environment → Environment → Prop}
    (hindex : ∀ env env' v, R env env' → R (env.withLastIndex v) (env'.withLastIndex v))
    {e : Expr} (hread : ∀ name p, e = reference name p → env.read name = env'.read name)
    (hop : ∀ op, e.binaryOp? = some op → op.apply s = op.apply t)
    (hchildren : ∀ c ∈ e.children, ∀ env env', R env env' → c.evaluate s env = c.evaluate t env')
    (henv : R env env') : e.evaluate s env = e.evaluate t env' := by
  have hnode : (e.mapChildren id).evaluate s env = e.evaluate t env' :=
    evaluate_mapChildren hindex hread hop hchildren henv
  rwa [mapChildren_id] at hnode

end

end Expr
end ExprLang
