import ExprLang.Proofs.Evaluation.Success
import ExprLang.Proofs.Expr.Names
import ExprLang.Proofs.Value.Indexing

/-!
# What evaluation depends on

Evaluation asks its environment for the names that the expression mentions and for no others.  So two
environments that agree on these give the same, values and faults alike (`evaluate_of_agreeOn`).

One name is special.  A subscript binds the last index for its index, so what an environment binds to
that name is hidden there, unless what is indexed has no length.  In that case the environment's
binding is seen, but to no avail: without a length there are no elements, and the subscript fails
whatever the index is.  Hence an expression that mentions the last index inside of indices only has
the same value whatever that name is bound to outside (`extends_of_agreeOn_others`).  Only its fault
may be another, if it has one.
-/

namespace ExprLang

namespace Environment

/-- Both environments have the same values for the given names. -/
def AgreeOn (names : List String) (env env' : Environment) : Prop :=
  ∀ name ∈ names, env name = env' name

section
variable {names : List String} {env env' : Environment}

theorem read_congr {name : String} (h : env name = env' name) : env.read name = env'.read name := by
  unfold read
  rw [h]

/-- Where there is a length, it does not matter what the last index was before. -/
theorem agreeOn_withLastIndex_of_length {v : Value} {length : Nat} (hlength : v.length = .ok length)
    (h : ∀ name ∈ names, name ≠ Expr.lastIndexName → env name = env' name) :
    AgreeOn names (env.withLastIndex v) (env'.withLastIndex v) := by
  intro name hname
  unfold Environment.withLastIndex
  rw [hlength]
  show Environment.bind _ _ _ _ = Environment.bind _ _ _ _
  by_cases hlast : name = Expr.lastIndexName
  · subst hlast
    rw [bind_self, bind_self]
  · rw [bind_of_ne _ _ hlast, bind_of_ne _ _ hlast]
    exact h name hname hlast

/-- Binding the last index in both keeps the agreement. -/
theorem AgreeOn.withLastIndex (h : AgreeOn names env env') (v : Value) :
    AgreeOn names (env.withLastIndex v) (env'.withLastIndex v) := by
  cases hlength : v.length with
  | ok length => exact agreeOn_withLastIndex_of_length hlength fun name hname _ => h name hname
  | error f =>
    unfold Environment.withLastIndex
    rw [hlength]
    exact h

end

end Environment

namespace Expr

variable {s : Settings} {e : Expr} {env env' : Environment}

/-- **Evaluation depends on the names that are mentioned.** -/
theorem evaluate_of_agreeOn (s : Settings) {names : List String}
    (hnames : ∀ name ∈ e.names, name ∈ names) (h : Environment.AgreeOn names env env') :
    e.evaluate s env = e.evaluate s env' := by
  induction e using induction_on_children generalizing env env' with
  | node e ih =>
    have hread : ∀ name p, e = reference name p → env.read name = env'.read name := by
      rintro name p rfl
      exact Environment.read_congr (h name (hnames name List.mem_cons_self))
    have hchildren : ∀ c ∈ e.children, ∀ env env', Environment.AgreeOn names env env' →
        c.evaluate s env = c.evaluate s env' :=
      fun c hc _ _ => ih c hc fun name hname => hnames name (mem_names_of_mem_children hc hname)
    exact evaluate_congr_children (fun _ _ v hagree => hagree.withLastIndex v) hread
      (fun _ _ => rfl) hchildren h

/-- **The last index of outside has no say inside of indices.**  If the last index is mentioned nowhere
else, there is the value that there is where it is bound to something else. -/
theorem extends_of_agreeOn_others
    (hindex : ∀ o ∈ e.occurrences false, o.name = lastIndexName → o.inIndex = true)
    (h : ∀ name ∈ e.names, name ≠ lastIndexName → env name = env' name) :
    Outcome.Extends (e.evaluate s env) (e.evaluate s env') := by
  induction e using induction_on_children with
  | node e ih =>
    refine extends_node ?_ (fun _ _ _ _ => .refl _) ?_ ?_
    · rintro name p rfl
      have hname : name ≠ lastIndexName := fun hlast =>
        Bool.false_ne_true (hindex ⟨name, false⟩ List.mem_cons_self hlast)
      have hread := Environment.read_congr (h name List.mem_cons_self hname)
      rw [hread]
      exact .refl _
    · rintro indexable index p rfl v
      cases hlength : v.length with
      | ok length =>
        have hmentioned : ∀ name ∈ index.names, name ≠ lastIndexName → env name = env' name :=
          fun name hname => h name (mem_names_of_mem_children (by simp [children]) hname)
        have hevaluate := evaluate_of_agreeOn s (fun _ hname => hname)
          (Environment.agreeOn_withLastIndex_of_length hlength hmentioned)
        rw [hevaluate]
        exact .refl _
      | error f =>
        -- the scopes may differ, but neither has a value
        intro w hw
        obtain ⟨i, -, hi⟩ := Outcome.bind_eq_ok_iff.1 hw
        rw [Value.index_of_length_eq_error hlength] at hi
        cases hi
    · intro c hc
      have hchild := mem_children_of_mem_unindexedChildren hc
      refine ih c hchild (fun o ho => ?_) fun name hname => ?_
      · exact hindex o (mem_occurrences_of_mem_unindexedChildren hc ho)
      · exact h name (mem_names_of_mem_children hchild hname)

-- Faults are another matter: without a length, the index is evaluated where the binding is seen.
example :
    let e := subscript (literal (.boolean true) ⟨1, 1⟩) (reference lastIndexName ⟨1, 6⟩) ⟨1, 5⟩
    e.evaluate {} .empty = .error ⟨.evaluation .openRange, some ⟨1, 6⟩⟩ ∧
      e.evaluate {} (Environment.empty.bind lastIndexName .null) =
        .error ⟨.index "true" "null", some ⟨1, 5⟩⟩ := ⟨rfl, rfl⟩

/-- **Evaluation depends on what is mentioned, and the last index of outside does not leak in.**
Environments that agree on all names of an expression give the same, and without variables all of
them do.  If the last index is mentioned inside of indices only, environments that agree on the
other names give the same values, whatever they bind to the last index. -/
theorem evaluate_eq_of_agreeOn_and_ok_iff (s : Settings) (e : Expr) :
    (∀ env env', Environment.AgreeOn e.names env env' → e.evaluate s env = e.evaluate s env') ∧
    (e.hasVariables = false → ∀ env env', e.evaluate s env = e.evaluate s env') ∧
    ((∀ o ∈ e.occurrences false, o.name = lastIndexName → o.inIndex = true) →
      ∀ env env' : Environment, (∀ name ∈ e.names, name ≠ lastIndexName → env name = env' name) →
        ∀ v, e.evaluate s env = .ok v ↔ e.evaluate s env' = .ok v) := by
  refine ⟨fun env env' h => evaluate_of_agreeOn s (fun _ hname => hname) h, ?_, ?_⟩
  · intro hvariables env env'
    have hnames := names_eq_nil_iff.2 hvariables
    have hagree : Environment.AgreeOn [] env env' := fun name hname =>
      absurd hname List.not_mem_nil
    exact evaluate_of_agreeOn s (fun name hname => hnames ▸ hname) hagree
  · intro hindex env env' h v
    have hback : ∀ name ∈ e.names, name ≠ lastIndexName → env' name = env name :=
      fun name hname hlast => (h name hname hlast).symm
    constructor
    · exact extends_of_agreeOn_others hindex hback v
    · exact extends_of_agreeOn_others hindex h v

/-- An open range up to the last index of an array, in environments that bind that name, or another
one, to something else. -/
theorem evaluate_open_range_of_other_bindings :
    let index := rangeFrom (literal (.integer 1) .unknown) .unknown
    let e := subscript (reference "a" .unknown) index .unknown
    let env := Environment.empty.bind "a" (.array [.null, .boolean true, .null])
    let other := env.bind "b" .null
    let last := env.bind lastIndexName (.string "x")
    let constant := unary .minus (literal (.integer 1) .unknown) ⟨1, 1⟩
    (Environment.AgreeOn e.names env other ∧ e.evaluate {} env = e.evaluate {} other) ∧
      (constant.hasVariables = false ∧ constant.evaluate {} env = constant.evaluate {} last) ∧
      (∀ o ∈ e.occurrences false, o.name = lastIndexName → o.inIndex = true) ∧
      (∀ name ∈ e.names, name ≠ lastIndexName → env name = last name) ∧
      ∃ v, e.evaluate {} env = .ok v ∧ e.evaluate {} last = .ok v := by
  intro index e env other last constant
  obtain ⟨hagree, _, hvalue⟩ := evaluate_eq_of_agreeOn_and_ok_iff {} e
  obtain ⟨_, hconstant, _⟩ := evaluate_eq_of_agreeOn_and_ok_iff {} constant
  have hother : Environment.AgreeOn e.names env other := by
    intro name hname
    have hne : name ≠ "b" := fun h => absurd (h ▸ hname) (by decide)
    exact (env.bind_of_ne .null hne).symm
  have hindex : ∀ o ∈ e.occurrences false, o.name = lastIndexName → o.inIndex = true := by decide
  have hlast : ∀ name ∈ e.names, name ≠ lastIndexName → env name = last name :=
    fun name _ hne => (env.bind_of_ne (.string "x") hne).symm
  have hok : (e.evaluate {} env).toOption.isSome = true := by decide +kernel
  obtain ⟨v, hv⟩ := Outcome.exists_eq_ok_iff.2 hok
  exact ⟨⟨hother, hagree env other hother⟩, ⟨rfl, hconstant rfl env last⟩, hindex, hlast, v, hv,
    (hvalue hindex env last hlast v).1 hv⟩

end Expr
end ExprLang
