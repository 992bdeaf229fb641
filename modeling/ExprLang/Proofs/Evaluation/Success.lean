import ExprLang.Proofs.Evaluation.Composition
import ExprLang.Proofs.Expr.Landmarks
import ExprLang.Proofs.Outcome

/-!
# When there is a value

Three facts about evaluation that anything done ahead of time rests on.

* **It is strict** (`exists_ok_of_mem_scopedChildren`).  A node that has a value has evaluated all
  of its children, and each of them had a value, though perhaps in another environment than that of
  the node: the index of a subscript sees one more binding, and where what is indexed has no value,
  there is no environment for it at all.
* **Values carry over node by node** (`extends_node`).  To have the value that evaluation gives under
  other settings or in another environment, it is enough that the parts of the node do.
* **Without landmarks nothing else matters** (`evaluate_of_landmarks_eq_nil`).  An expression that
  refers to no variable and builds no range gives the same in every environment and under all
  settings, be that a value or a fault.

With the first: if such an expression has a value anywhere, all that is below it has a value everywhere.
-/

namespace ExprLang

theorem Outcome.located_eq_ok_iff {p : Position} {o : Outcome Value} {v : Value} :
    Outcome.located p o = .ok v ↔ ∃ w, o = .ok w ∧ w.withPosition p = v := by
  cases o with
  | ok w => simp
  | error f => simp

theorem Outcome.Extends.located {o o' : Outcome Value} (h : Outcome.Extends o o') (p : Position) :
    Outcome.Extends (Outcome.located p o) (Outcome.located p o') := by
  intro v hv
  obtain ⟨w, hw, hv⟩ := Outcome.located_eq_ok_iff.1 hv
  exact Outcome.located_eq_ok_iff.2 ⟨w, h w hw, hv⟩

/-- Whatever has a value under the settings `t` has the same value under `s`. -/
def Settings.Extends (s t : Settings) : Prop :=
  ∀ (e : Expr) (env : Environment), Outcome.Extends (e.evaluate s env) (e.evaluate t env)

theorem Settings.Extends.refl (s : Settings) : s.Extends s := fun _ _ _ h => h

namespace Expr

/-! ## Strictness -/

section
variable {s t : Settings} {env : Environment}

theorem exists_ok_of_mem_elements {elements : List Expr} {vs : List Value}
    (h : evaluateElements s elements env = .ok vs) {e : Expr} (he : e ∈ elements) :
    ∃ v, e.evaluate s env = .ok v := by
  induction elements generalizing vs with
  | nil => exact absurd he List.not_mem_nil
  | cons head rest ih =>
    rw [evaluateElements] at h
    obtain ⟨v, hhead, h⟩ := Outcome.bind_eq_ok_iff.1 h
    obtain ⟨ws, hrest, _⟩ := Outcome.bind_eq_ok_iff.1 h
    rcases List.mem_cons.1 he with rfl | he
    · exact ⟨v, hhead⟩
    · exact ih hrest he

theorem exists_ok_of_mem_entries {entries : List (String × Expr)} {vs : List (String × Value)}
    (h : evaluateEntries s entries env = .ok vs) {e : String × Expr} (he : e ∈ entries) :
    ∃ v, e.2.evaluate s env = .ok v := by
  induction entries generalizing vs with
  | nil => exact absurd he List.not_mem_nil
  | cons head rest ih =>
    rw [evaluateEntries] at h
    obtain ⟨v, hhead, h⟩ := Outcome.bind_eq_ok_iff.1 h
    obtain ⟨ws, hrest, _⟩ := Outcome.bind_eq_ok_iff.1 h
    rcases List.mem_cons.1 he with rfl | he
    · exact ⟨v, hhead⟩
    · exact ih hrest he

/-- The scope of the index of a subscript.  There is none where what is indexed has no value. -/
def indexScope (s : Settings) (indexable : Expr) (scope : Option Environment) :
    Option Environment := do
  let env ← scope
  let v ← (indexable.evaluate s env).toOption
  return env.withLastIndex v

/-- The direct children, each with the scope in which it is evaluated. -/
def scopedChildren (s : Settings) (scope : Option Environment) :
    Expr → List (Expr × Option Environment)
  | subscript indexable index _ => [(indexable, scope), (index, indexScope s indexable scope)]
  | e => e.children.map fun c => (c, scope)

theorem map_fst_scopedChildren (s : Settings) (scope : Option Environment) (e : Expr) :
    (e.scopedChildren s scope).map Prod.fst = e.children := by
  cases e with
  | subscript indexable index p => rfl
  | _ => simp [scopedChildren, Function.comp_def]

theorem mem_children_of_mem_scopedChildren {scope : Option Environment} {e : Expr}
    {c : Expr × Option Environment} (hc : c ∈ e.scopedChildren s scope) : c.1 ∈ e.children := by
  rw [← map_fst_scopedChildren s scope e]
  exact List.mem_map_of_mem hc

theorem indexScope_of_ok {indexable : Expr} {v : Value} (h : indexable.evaluate s env = .ok v) :
    indexScope s indexable (some env) = some (env.withLastIndex v) := by
  show ((indexable.evaluate s env).toOption.bind fun v => some (env.withLastIndex v)) = _
  rw [h]
  rfl

/-- **Evaluation is strict**: a node that has a value has children that all have one in their
scopes.  These may be the scopes under settings that extend those in force. -/
theorem exists_ok_of_mem_scopedChildren (hst : s.Extends t) {e : Expr} {v : Value}
    (h : e.evaluate t env = .ok v) {c : Expr × Option Environment}
    (hc : c ∈ e.scopedChildren s (some env)) :
    ∃ env' w, c.2 = some env' ∧ c.1.evaluate t env' = .ok w := by
  cases e with
  | literal v p => exact absurd hc List.not_mem_nil
  | reference name p => exact absurd hc List.not_mem_nil
  | array elements p =>
    rw [evaluate] at h
    obtain ⟨_, h, _⟩ := Outcome.located_eq_ok_iff.1 h
    obtain ⟨vs, hvs, _⟩ := Outcome.bind_eq_ok_iff.1 h
    obtain ⟨e, he, rfl⟩ := List.mem_map.1 hc
    obtain ⟨w, hw⟩ := exists_ok_of_mem_elements hvs he
    exact ⟨env, w, rfl, hw⟩
  | map entries p =>
    rw [evaluate] at h
    obtain ⟨_, h, _⟩ := Outcome.located_eq_ok_iff.1 h
    obtain ⟨vs, hvs, _⟩ := Outcome.bind_eq_ok_iff.1 h
    obtain ⟨e, he, rfl⟩ := List.mem_map.1 hc
    obtain ⟨entry, hentry, rfl⟩ := List.mem_map.1 he
    obtain ⟨w, hw⟩ := exists_ok_of_mem_entries hvs hentry
    exact ⟨env, w, rfl, hw⟩
  | unary op operand p =>
    rw [evaluate] at h
    obtain ⟨_, h, _⟩ := Outcome.located_eq_ok_iff.1 h
    obtain ⟨w, hw, _⟩ := Outcome.bind_eq_ok_iff.1 h
    rw [List.mem_singleton.1 hc]
    exact ⟨env, w, rfl, hw⟩
  | subscript indexable index p =>
    rw [evaluate] at h
    obtain ⟨_, h, _⟩ := Outcome.located_eq_ok_iff.1 h
    obtain ⟨w, hw, h⟩ := Outcome.bind_eq_ok_iff.1 h
    obtain ⟨i, hi, _⟩ := Outcome.bind_eq_ok_iff.1 h
    simp only [scopedChildren, List.mem_cons, List.not_mem_nil, or_false] at hc
    rcases hc with rfl | rfl
    · exact ⟨env, w, rfl, hw⟩
    · exact ⟨env.withLastIndex w, i, indexScope_of_ok (hst indexable env w hw), hi⟩
  | binary left op right p =>
    rw [evaluate] at h
    obtain ⟨_, h, _⟩ := Outcome.located_eq_ok_iff.1 h
    obtain ⟨w, hw, h⟩ := Outcome.bind_eq_ok_iff.1 h
    obtain ⟨u, hu, _⟩ := Outcome.bind_eq_ok_iff.1 h
    simp only [scopedChildren, children, List.map_cons, List.map_nil, List.mem_cons,
      List.not_mem_nil, or_false] at hc
    rcases hc with rfl | rfl
    · exact ⟨env, w, rfl, hw⟩
    · exact ⟨env, u, rfl, hu⟩

/-- A node that has a value has children that all have one somewhere. -/
theorem exists_ok_of_mem_children {e : Expr} {v : Value} (h : e.evaluate s env = .ok v) {c : Expr}
    (hc : c ∈ e.children) : ∃ env' w, c.evaluate s env' = .ok w := by
  rw [← map_fst_scopedChildren s (some env) e] at hc
  obtain ⟨child, hchild, rfl⟩ := List.mem_map.1 hc
  obtain ⟨env', w, _, hw⟩ := exists_ok_of_mem_scopedChildren (.refl s) h hchild
  exact ⟨env', w, hw⟩

end

/-! ## Values that carry over -/

section
variable {s t : Settings} {env env' : Environment}

theorem extends_elements {elements : List Expr}
    (h : ∀ e ∈ elements, Outcome.Extends (e.evaluate s env) (e.evaluate t env')) :
    Outcome.Extends (evaluateElements s elements env) (evaluateElements t elements env') := by
  induction elements with
  | nil => exact .refl _
  | cons e rest ih =>
    have hhead := h e List.mem_cons_self
    have htail := ih fun c hc => h c (List.mem_cons_of_mem _ hc)
    exact hhead.bind fun v => htail.bind fun vs => .refl _

theorem extends_entries {entries : List (String × Expr)}
    (h : ∀ e ∈ entries, Outcome.Extends (e.2.evaluate s env) (e.2.evaluate t env')) :
    Outcome.Extends (evaluateEntries s entries env) (evaluateEntries t entries env') := by
  induction entries with
  | nil => exact .refl _
  | cons e rest ih =>
    have hhead := h e List.mem_cons_self
    have htail := ih fun c hc => h c (List.mem_cons_of_mem _ hc)
    exact hhead.bind fun v => htail.bind fun vs => .refl _

/-- **A node whose parts carry over carries over.**  What happens to the index of a subscript is asked
together with the subscript itself, since the last index is bound to something that only the value
of what is indexed decides. -/
theorem extends_node {e : Expr}
    (hread : ∀ name p, e = reference name p → Outcome.Extends (env.read name) (env'.read name))
    (hop : ∀ op, e.binaryOp? = some op →
      ∀ v w, Outcome.Extends (op.apply s v w) (op.apply t v w))
    (hsubscript : ∀ indexable index p, e = subscript indexable index p → ∀ v : Value,
      Outcome.Extends (index.evaluate s (env.withLastIndex v) >>= v.index)
        (index.evaluate t (env'.withLastIndex v) >>= v.index))
    (hchildren : ∀ c ∈ e.unindexedChildren,
      Outcome.Extends (c.evaluate s env) (c.evaluate t env')) :
    Outcome.Extends (e.evaluate s env) (e.evaluate t env') := by
  cases e with
  | literal v p => exact .refl _
  | reference name p =>
    rw [evaluate, evaluate]
    exact (hread name p rfl).located p
  | array elements p =>
    rw [evaluate, evaluate]
    exact ((extends_elements hchildren).bind fun items => .refl _).located p
  | map entries p =>
    have hentries : ∀ e ∈ entries, Outcome.Extends (e.2.evaluate s env) (e.2.evaluate t env') :=
      fun e he => hchildren e.2 (List.mem_map_of_mem he)
    rw [evaluate, evaluate]
    exact ((extends_entries hentries).bind fun bindings => .refl _).located p
  | unary op operand p =>
    have hoperand := hchildren operand (by simp [unindexedChildren, children])
    rw [evaluate, evaluate]
    exact (hoperand.bind fun v => .refl _).located p
  | subscript indexable index p =>
    have hindexable := hchildren indexable (by simp [unindexedChildren])
    rw [evaluate, evaluate]
    exact (hindexable.bind fun v => hsubscript indexable index p rfl v).located p
  | binary left op right p =>
    have hleft := hchildren left (by simp [unindexedChildren, children])
    have hright := hchildren right (by simp [unindexedChildren, children])
    rw [evaluate, evaluate]
    exact (hleft.bind fun v => hright.bind fun w => hop op rfl v w).located p

end

/-! ## No landmarks -/

/-- Only ranges look at the settings. -/
theorem apply_of_ne_range {op : BinaryOp} (h : op ≠ .range) (s t : Settings) :
    op.apply s = op.apply t := by
  cases op with
  | range => exact absurd rfl h
  | _ => rfl

theorem binaryOp?_ne_range_of_landmark? {e : Expr} (h : e.landmark? = none) :
    e.binaryOp? ≠ some .range := by
  cases e with
  | binary left op right p =>
    rintro hop
    cases hop
    cases h
  | _ => exact nofun

/-- **An expression without landmarks gives the same everywhere**: in every environment and under
all settings. -/
theorem evaluate_of_landmarks_eq_nil {e : Expr} (h : e.landmarks = []) (s t : Settings)
    (env env' : Environment) : e.evaluate s env = e.evaluate t env' := by
  induction e using induction_on_children generalizing env env' with
  | node e ih =>
    obtain ⟨hroot, hbelow⟩ := landmarks_eq_nil_iff_children.1 h
    have hread : ∀ name p, e = reference name p → env.read name = env'.read name := by
      rintro name p rfl
      cases hroot
    have hop : ∀ op, e.binaryOp? = some op → op.apply s = op.apply t := by
      intro op hop
      refine apply_of_ne_range (fun hrange => ?_) s t
      exact binaryOp?_ne_range_of_landmark? hroot (hrange ▸ hop)
    have hchildren : ∀ c ∈ e.children, ∀ env env' : Environment, True →
        c.evaluate s env = c.evaluate t env' :=
      fun c hc env env' _ => ih c hc (hbelow c hc) env env'
    exact evaluate_congr_children (fun _ _ _ h => h) hread hop hchildren trivial

end Expr
end ExprLang
