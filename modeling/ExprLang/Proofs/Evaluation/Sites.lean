import ExprLang.Proofs.Evaluation.Success

/-!
# The sites of an expression

To say which node of an expression is at fault one has to say more than which expression it is.  The
same expression may occur at several places, under other nodes and in other scopes.  A *site* is a
node with the nodes above it, up to the root, and with the environment in which evaluation comes to
it.

`sites` lists all of them, in the order in which evaluation is done with them: the children from
left to right, and then the node itself.  So the nodes of the sites are the nodes in postorder
(`map_node_sites`), and `sites_eq` is the one equation about the list that the theory uses.

The scope of a site is that of the site above it, with one exception: the index of a subscript is
evaluated where the last index of what is indexed is bound.  If what is indexed has no value, there
is no such environment, evaluation never comes to the index, and the sites in it have no scope.

So whatever binding the last index preserves holds in all scopes if it holds in the first
(`scope_of_mem_sites`).

A site succeeds if it has a scope, and its node a value there.  Evaluation is strict, so if the
root has a value, all sites succeed (`succeeds_of_mem_sites`).
-/

namespace ExprLang

/-- A node of an expression in its place. -/
structure Site where
  node : Expr
  /-- The nodes above it, from its parent up to the root. -/
  above : List Expr
  /-- The environment in which it is evaluated, if it is. -/
  scope : Option Environment

namespace Site

/-- The positions on the way from the node, which is the first, up to the root. -/
def trail (site : Site) : List Position := (site.node :: site.above).map Expr.position

/-- Whether the node has a value in its scope. -/
def Succeeds (s : Settings) (site : Site) : Prop :=
  ∃ env v, site.scope = some env ∧ site.node.evaluate s env = .ok v

end Site

namespace Expr

mutual

/-- The nodes of an expression in postorder. -/
def postorder : Expr → List Expr
  | literal v p => [literal v p]
  | reference name p => [reference name p]
  | array elements p => elementPostorder elements ++ [array elements p]
  | map entries p => entryPostorder entries ++ [map entries p]
  | unary op operand p => postorder operand ++ [unary op operand p]
  | subscript indexable index p =>
    postorder indexable ++ postorder index ++ [subscript indexable index p]
  | binary left op right p => postorder left ++ postorder right ++ [binary left op right p]

/-- The nodes of several expressions in postorder. -/
def elementPostorder : List Expr → List Expr
  | [] => []
  | e :: rest => postorder e ++ elementPostorder rest

/-- The nodes of the expressions of several entries in postorder. -/
def entryPostorder : List (String × Expr) → List Expr
  | [] => []
  | (_, e) :: rest => postorder e ++ entryPostorder rest

end

mutual

/-- The sites of an expression below the given nodes and in the given scope, in postorder. -/
def sites (s : Settings) : Expr → List Expr → Option Environment → List Site
  | literal v p, above, scope => [⟨literal v p, above, scope⟩]
  | reference name p, above, scope => [⟨reference name p, above, scope⟩]
  | array elements p, above, scope =>
    elementSites s elements (array elements p :: above) scope ++ [⟨array elements p, above, scope⟩]
  | map entries p, above, scope =>
    entrySites s entries (map entries p :: above) scope ++ [⟨map entries p, above, scope⟩]
  | unary op operand p, above, scope =>
    sites s operand (unary op operand p :: above) scope ++ [⟨unary op operand p, above, scope⟩]
  | subscript indexable index p, above, scope =>
    sites s indexable (subscript indexable index p :: above) scope ++
      sites s index (subscript indexable index p :: above) (indexScope s indexable scope) ++
      [⟨subscript indexable index p, above, scope⟩]
  | binary left op right p, above, scope =>
    sites s left (binary left op right p :: above) scope ++
      sites s right (binary left op right p :: above) scope ++
      [⟨binary left op right p, above, scope⟩]

/-- The sites of several expressions. -/
def elementSites (s : Settings) : List Expr → List Expr → Option Environment → List Site
  | [], _, _ => []
  | e :: rest, above, scope => sites s e above scope ++ elementSites s rest above scope

/-- The sites of the expressions of several entries. -/
def entrySites (s : Settings) :
    List (String × Expr) → List Expr → Option Environment → List Site
  | [], _, _ => []
  | (_, e) :: rest, above, scope => sites s e above scope ++ entrySites s rest above scope

end

/-! ## The lists -/

theorem elementPostorder_eq_flatMap (elements : List Expr) :
    elementPostorder elements = elements.flatMap postorder := by
  induction elements with
  | nil => rfl
  | cons e rest ih => rw [elementPostorder, ih, List.flatMap_cons]

theorem entryPostorder_eq_flatMap (entries : List (String × Expr)) :
    entryPostorder entries = (entries.map Prod.snd).flatMap postorder := by
  induction entries with
  | nil => rfl
  | cons e rest ih => rw [entryPostorder, ih, List.map_cons, List.flatMap_cons]

/-- **In postorder, the nodes below the children come first**, from left to right, and the node
comes last. -/
theorem postorder_eq (e : Expr) : e.postorder = e.children.flatMap postorder ++ [e] := by
  cases e with
  | array elements p => rw [postorder, elementPostorder_eq_flatMap, children]
  | map entries p => rw [postorder, entryPostorder_eq_flatMap, children]
  | _ => simp [postorder, children]

section
variable {s : Settings} {above : List Expr} {scope : Option Environment}

theorem elementSites_eq_flatMap (elements : List Expr) :
    elementSites s elements above scope = elements.flatMap fun e => e.sites s above scope := by
  induction elements with
  | nil => rfl
  | cons e rest ih => rw [elementSites, ih, List.flatMap_cons]

theorem entrySites_eq_flatMap (entries : List (String × Expr)) :
    entrySites s entries above scope =
      (entries.map Prod.snd).flatMap fun e => e.sites s above scope := by
  induction entries with
  | nil => rfl
  | cons e rest ih => rw [entrySites, ih, List.map_cons, List.flatMap_cons]

/-- **The sites are those of the children in their scopes**, and that of the node itself. -/
theorem sites_eq (e : Expr) : e.sites s above scope =
    ((e.scopedChildren s scope).flatMap fun c => c.1.sites s (e :: above) c.2) ++
      [⟨e, above, scope⟩] := by
  cases e with
  | array elements p =>
    simp [sites, elementSites_eq_flatMap, scopedChildren, children, List.flatMap_map]
  | map entries p =>
    simp [sites, entrySites_eq_flatMap, scopedChildren, children, List.flatMap_map]
  | _ => simp [sites, scopedChildren, children]

theorem root_mem_sites (e : Expr) : ⟨e, above, scope⟩ ∈ e.sites s above scope := by
  rw [sites_eq]
  exact List.mem_append_right _ (List.mem_singleton_self _)

/-- **The sites are the nodes in postorder**, whatever evaluation does. -/
theorem map_node_sites (e : Expr) : (e.sites s above scope).map Site.node = e.postorder := by
  induction e using induction_on_children generalizing above scope with
  | node e ih =>
    have hbelow : ∀ c ∈ e.scopedChildren s scope,
        (c.1.sites s (e :: above) c.2).map Site.node = c.1.postorder :=
      fun c hc => ih c.1 (mem_children_of_mem_scopedChildren hc)
    rw [sites_eq, postorder_eq, ← map_fst_scopedChildren s scope e, List.map_append,
      List.map_flatMap, List.flatMap_map, List.map_singleton, List.flatMap_def,
      List.map_congr_left hbelow, ← List.flatMap_def]

/-! ## Scopes -/

section
variable {P : Environment → Prop}

/-- One step down: a child sees what the node sees, with the last index bound or without. -/
theorem scope_of_mem_scopedChildren (hindex : ∀ env v, P env → P (env.withLastIndex v)) {e : Expr}
    (hscope : ∀ env, scope = some env → P env) {c : Expr × Option Environment}
    (hc : c ∈ e.scopedChildren s scope) {env : Environment} (henv : c.2 = some env) : P env := by
  cases e with
  | subscript indexable index p =>
    simp only [scopedChildren, List.mem_cons, List.not_mem_nil, or_false] at hc
    rcases hc with rfl | rfl
    · exact hscope env henv
    · obtain ⟨outer, houter, h⟩ := Option.bind_eq_some_iff.1 henv
      obtain ⟨v, _, h⟩ := Option.bind_eq_some_iff.1 h
      cases h
      exact hindex outer v (hscope outer houter)
  | _ =>
    obtain ⟨child, _, rfl⟩ := List.mem_map.1 hc
    exact hscope env henv

/-- **What binding the last index preserves holds in every scope** that evaluation comes to, if it holds
in the first. -/
theorem scope_of_mem_sites (hindex : ∀ env v, P env → P (env.withLastIndex v)) {e : Expr}
    (hscope : ∀ env, scope = some env → P env) {site : Site} (hsite : site ∈ e.sites s above scope)
    {env : Environment} (henv : site.scope = some env) : P env := by
  induction e using induction_on_children generalizing above scope with
  | node e ih =>
    rw [sites_eq, List.mem_append, List.mem_flatMap, List.mem_singleton] at hsite
    rcases hsite with ⟨c, hc, hsite⟩ | rfl
    · have hchild : ∀ env, c.2 = some env → P env := fun _ h =>
        scope_of_mem_scopedChildren hindex hscope hc h
      exact ih c.1 (mem_children_of_mem_scopedChildren hc) hchild hsite
    · exact hscope env henv

end

end

/-! ## Success -/

/-- **If the root has a value, all sites succeed**, and so do those of evaluation under settings that
extend those in force. -/
theorem succeeds_of_mem_sites {s t : Settings} (hst : s.Extends t) {e : Expr} {env : Environment}
    {v : Value} (h : e.evaluate t env = .ok v) {above : List Expr} {site : Site}
    (hsite : site ∈ e.sites s above (some env)) : site.Succeeds t := by
  induction e using induction_on_children generalizing above env v with
  | node e ih =>
    rw [sites_eq, List.mem_append, List.mem_flatMap, List.mem_singleton] at hsite
    rcases hsite with ⟨c, hc, hsite⟩ | rfl
    · obtain ⟨env', w, hscope, hw⟩ := exists_ok_of_mem_scopedChildren hst h hc
      rw [hscope] at hsite
      exact ih c.1 (mem_children_of_mem_scopedChildren hc) hw hsite
    · exact ⟨env, v, rfl, h⟩

end Expr
end ExprLang
