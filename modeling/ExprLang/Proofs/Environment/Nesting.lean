import ExprLang.Proofs.Entries.Merging
import ExprLang.Proofs.Evaluation.Sites

/-!
# Nested scopes

Scopes can be stacked, each with a table of its own, and a look-up walks down the stack until a table
has the name.  Nothing of that structure can be observed: the stack gives what a single table gives
in which all declarations were made, those of the outermost scope first.

The reason is one law, at three places.  To declare a name binds it in what is seen, whether the name
is declared in a scope (`Scope.environment_declare`) or in a table (`Table.value_declare`), and the
scope that evaluation opens for the index of a subscript is no exception
(`Environment.withLastIndex_eq_bindAll`).  The law does not ask what the name is bound to, so a name
declared as undefined hides what is below it as any other does.

Hence a run of declarations binds the same names in the same order, wherever it is made
(`Scope.environment_declareAll`, `Table.value_declareAll`), and where scopes begin and end leaves no
trace (`Scope.nest_eq_bindAll`).
-/

namespace ExprLang

namespace Environment

/-- Several names bound anew, one after the other. -/
def bindAll (env : Environment) (bindings : List (String × Value)) : Environment :=
  bindings.foldl (fun env b => env.bind b.1 b.2) env

theorem bindAll_append (env : Environment) (bindings more : List (String × Value)) :
    env.bindAll (bindings ++ more) = (env.bindAll bindings).bindAll more := List.foldl_append

/-- What is declared for the index of a subscript: the last index of what is indexed, if that has a
length. -/
def lastIndexBindings (indexable : Value) : List (String × Value) :=
  match indexable.length with
  | .ok length => [(Expr.lastIndexName, .number ((Number.ofInt length).sub (.ofInt 1)))]
  | .error _ => []

theorem withLastIndex_eq_bindAll (env : Environment) (v : Value) :
    env.withLastIndex v = env.bindAll (lastIndexBindings v) := by
  unfold withLastIndex lastIndexBindings
  cases v.length with
  | ok length => rfl
  | error f => rfl

end Environment

/-! ## Scopes -/

namespace Scope

/-- Declares several names, one after the other. -/
def declareAll (s : Scope) (bindings : List (String × Value)) : Scope :=
  bindings.foldl (fun s b => s.declare b.1 b.2) s

theorem environment_apply (s : Scope) (name : String) :
    s.environment name = (Entries.lookup name s.locals.entries).getD (s.below name) := by
  show (if (Entries.lookup name s.locals.entries).isSome = true then
    (Entries.lookup name s.locals.entries).getD .undefined else s.below name) = _
  cases Entries.lookup name s.locals.entries with
  | none => rfl
  | some v => rfl

/-- **Declaring a name in a scope binds it.** -/
theorem environment_declare (s : Scope) (name : String) (v : Value) :
    (s.declare name v).environment = s.environment.bind name v := by
  funext n
  rw [environment_apply]
  show (Entries.lookup n (Entries.insert name v s.locals.entries)).getD (s.below n) = _
  rw [Entries.lookup_insert]
  by_cases hn : name = n
  · subst hn
    rw [if_pos rfl, Environment.bind_self, Option.getD_some]
  · rw [if_neg hn, Environment.bind_of_ne _ _ (Ne.symm hn), environment_apply]

theorem environment_declareAll (s : Scope) (bindings : List (String × Value)) :
    (s.declareAll bindings).environment = s.environment.bindAll bindings :=
  (List.foldl_hom environment fun s b => (environment_declare s b.1 b.2).symm).symm

end Scope

/-! ## Tables -/

namespace Table

/-- Declares several names, one after the other. -/
def declareAll (t : Table) (bindings : List (String × Value)) : Table :=
  bindings.foldl (fun t b => t.declare b.1 b.2) t

/-- A table is seen as a scope on top of nothing is. -/
theorem value_eq_environment (t : Table) :
    t.value = ({ below := .empty, locals := t } : Scope).environment := by
  funext name
  rw [Scope.environment_apply]
  rfl

/-- **Declaring a name in a table binds it.** -/
theorem value_declare (t : Table) (name : String) (v : Value) :
    (t.declare name v).value = Environment.bind t.value name v := by
  rw [value_eq_environment, value_eq_environment]
  exact Scope.environment_declare { below := .empty, locals := t } name v

theorem value_declareAll (t : Table) (bindings : List (String × Value)) :
    (t.declareAll bindings).value = Environment.bindAll t.value bindings :=
  (List.foldl_hom value fun t b => (value_declare t b.1 b.2).symm).symm

theorem entries_declareAll (t : Table) (bindings : List (String × Value)) :
    (t.declareAll bindings).entries = Entries.merge t.entries bindings :=
  (List.foldl_hom entries fun _ _ => rfl).symm

/-- Declaring names in a table adds them to the bindings that it is made of. -/
theorem ofList_entries_append (t : Table) (bindings : List (String × Value)) :
    ofList (t.entries ++ bindings) = t.declareAll bindings := by
  have hentries : Entries.ofList (t.entries ++ bindings) = (t.declareAll bindings).entries := by
    rw [entries_declareAll, Entries.ofList, List.foldl_append]
    show Entries.merge (Entries.ofList t.entries) bindings = _
    rw [Entries.ofList_of_sorted t.sorted]
  unfold ofList
  congr 1

/-- The table of a list of bindings is the one in which they were declared. -/
theorem ofList_eq_declareAll (bindings : List (String × Value)) :
    ofList bindings = empty.declareAll bindings := ofList_entries_append empty bindings

end Table

/-! ## Contexts -/

namespace Context

/-- Declares several names, one after the other, as far as the host allows it. -/
def declareAll (c : Context) (bindings : List (String × Value)) : Outcome Context :=
  bindings.foldlM (fun c b => c.declare b.1 b.2) c

/-- **A host that lets declarations overwrite takes all of them.** -/
theorem declareAll_of_overwrites {c : Context} (h : c.redeclaration = .overwrites)
    (bindings : List (String × Value)) :
    c.declareAll bindings = .ok { c with table := c.table.declareAll bindings } := by
  induction bindings generalizing c with
  | nil => rfl
  | cons b rest ih =>
    have hdeclare : c.declare b.1 b.2 = .ok { c with table := c.table.declare b.1 b.2 } := by
      rw [declare, write_of_overwrites h]
      rfl
    have hrest := ih (c := { c with table := c.table.declare b.1 b.2 }) h
    unfold declareAll at hrest ⊢
    rw [List.foldlM_cons, hdeclare]
    exact hrest

end Context

/-! ## Nesting -/

namespace Scope

theorem declareAll_eq (s : Scope) (bindings : List (String × Value)) :
    s.declareAll bindings = { s with locals := s.locals.declareAll bindings } :=
  List.foldl_hom (mk s.below) fun (t : Table) (b : String × Value) =>
    (rfl : declare (mk s.below t) b.1 b.2 = mk s.below (t.declare b.1 b.2))

/-- Nesting opens a scope for each list and makes the declarations there. -/
theorem nest_eq_foldl_declareAll (below : Environment) (scopes : List (List (String × Value))) :
    nest below scopes = scopes.foldl (fun env bindings =>
      (declareAll { below := env } bindings).environment) below := by
  unfold nest
  congr 1
  funext env bindings
  rw [declareAll_eq, Table.ofList_eq_declareAll]

/-- **Where scopes begin and end leaves no trace.** -/
theorem nest_eq_bindAll (below : Environment) (scopes : List (List (String × Value))) :
    nest below scopes = below.bindAll scopes.flatten := by
  rw [nest_eq_foldl_declareAll]
  induction scopes generalizing below with
  | nil => rfl
  | cons bindings rest ih =>
    have hempty : ({ below := below } : Scope).environment = below := rfl
    rw [List.foldl_cons, ih, environment_declareAll, hempty, List.flatten_cons,
      Environment.bindAll_append]

/-- The index of a subscript is evaluated in one more scope. -/
theorem withLastIndex_nest (below : Environment) (scopes : List (List (String × Value)))
    (v : Value) : (nest below scopes).withLastIndex v =
      nest below (scopes ++ [Environment.lastIndexBindings v]) := by
  rw [Environment.withLastIndex_eq_bindAll, nest_eq_bindAll, nest_eq_bindAll,
    ← Environment.bindAll_append, List.flatten_append, List.flatten_singleton]

/-- **All scopes that evaluation comes to are nested ones** if the first is: it only ever opens more. -/
theorem exists_nest_of_mem_sites {below : Environment} {scopes : List (List (String × Value))}
    {s : Settings} {e : Expr} {above : List Expr} {site : Site}
    (hsite : site ∈ e.sites s above (some (nest below scopes))) {env : Environment}
    (henv : site.scope = some env) : ∃ more, env = nest below (scopes ++ more) := by
  refine Expr.scope_of_mem_sites (P := fun env => ∃ more, env = nest below (scopes ++ more))
    ?_ ?_ hsite henv
  · rintro _ v ⟨more, rfl⟩
    rw [withLastIndex_nest]
    exact ⟨more ++ [Environment.lastIndexBindings v], by rw [List.append_assoc]⟩
  · rintro _ ⟨⟩
    exact ⟨[], by rw [List.append_nil]⟩

/-- **Nested scopes refine one flat table.**  Take scopes nested over a context, each with the
declarations made in it, and a context in which all of them are made, those of the outermost scope
first.  It accepts them, its table is the first context's followed by the declarations, and every
name and every expression has the same value in both, or the same fault.  On its way, evaluation
comes to no other environments than further scopes nested in the given ones. -/
theorem nest_refines_flat_table (root : Table) (scopes : List (List (String × Value))) :
    let context : Context := { table := root }
    let nested := scopes.foldl (fun env bindings =>
      (declareAll { below := env } bindings).environment) context.environment
    nested = nest context.environment scopes ∧
    ∃ flat : Context, context.declareAll scopes.flatten = .ok flat ∧
      flat.table = .ofList (root.entries ++ scopes.flatten) ∧
      (∀ name, nested name = flat.environment name) ∧
      ∀ (s : Settings) (e : Expr), e.evaluate s nested = e.evaluate s flat.environment ∧
        ∀ site ∈ e.sites s [] (some nested), ∀ env, site.scope = some env →
          ∃ more, env = nest context.environment (scopes ++ more) := by
  intro context nested
  have hnested : nested = nest context.environment scopes :=
    (nest_eq_foldl_declareAll context.environment scopes).symm
  have hflat : nested = (root.declareAll scopes.flatten).value := by
    rw [hnested, nest_eq_bindAll, Table.value_declareAll]
    rfl
  refine ⟨hnested, { table := root.declareAll scopes.flatten }, ?_, ?_, ?_, fun s e => ⟨?_, ?_⟩⟩
  · exact Context.declareAll_of_overwrites rfl scopes.flatten
  · exact (Table.ofList_entries_append root scopes.flatten).symm
  · exact fun name => congrFun hflat name
  · rw [hflat]
    rfl
  · intro site hsite env henv
    rw [hnested] at hsite
    exact exists_nest_of_mem_sites hsite henv

/-- A subscript whose index refers to a name that the inner scope hides as undefined. -/
theorem nest_hidden_in_index :
    let context : Context := { table := .ofList [("x", .integer 1)] }
    let scopes := [[("x", .null), ("y", .integer 2)], [("x", .integer 3), ("x", .undefined)]]
    let nested := scopes.foldl (fun env bindings =>
      (declareAll { below := env } bindings).environment) context.environment
    let index := Expr.reference "x" ⟨1, 3⟩
    let indexable := Value.array [.null]
    let e := Expr.subscript (.literal indexable ⟨1, 1⟩) index ⟨1, 2⟩
    let site : Site := ⟨index, [e], some (nested.withLastIndex (indexable.withPosition ⟨1, 1⟩))⟩
    site ∈ e.sites {} [] (some nested) ∧ nested "x" = .undefined ∧
      ∃ more, nested.withLastIndex (indexable.withPosition ⟨1, 1⟩) =
        nest context.environment (scopes ++ more) := by
  intro context scopes nested index indexable e site
  have hsite : site ∈ e.sites {} [] (some nested) :=
    List.mem_cons_of_mem _ List.mem_cons_self
  obtain ⟨_, flat, _, _, _, hevaluate⟩ :=
    nest_refines_flat_table (.ofList [("x", .integer 1)]) scopes
  exact ⟨hsite, rfl, (hevaluate {} e).2 site hsite _ rfl⟩

end Scope
end ExprLang
