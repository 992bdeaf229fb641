import ExprLang.Proofs.Environment.Nesting
import ExprLang.Proofs.Evaluation.Composition
import ExprLang.Proofs.Expr.Replacement

/-!
# Inlining a variable

To declare a variable in a scope and evaluate there is to evaluate outside with the value written out
as a literal at each reference to the variable.  Both give the same value with the same positions, or the
same fault at the same position, also where the variable is declared as undefined
(`evaluate_declare_eq_evaluate_substitute`).

The literal leaves the mark that the reference leaves, as both stand at the same position.  So the two sides
agree at the references, and elsewhere the node is the same and evaluation is compositional.  What needs an
argument is the environment.  The index of a subscript is evaluated with the last index bound on top of
the variable on the one side, and without the variable on the other.  As these are two names it does not
matter which is bound first (`Environment.withLastIndex_bind`), so on the way down the two environments
differ by the variable and by nothing else.

The last index itself cannot be inlined.  A subscript binds it anew, while a literal keeps what it was.
-/

namespace ExprLang

namespace Environment

/-- It does not matter in which order two names are bound. -/
theorem bind_comm (env : Environment) {name name' : String} (h : name ≠ name') (v w : Value) :
    (env.bind name v).bind name' w = (env.bind name' w).bind name v := by
  funext n
  by_cases hn : n = name
  · subst hn
    rw [bind_of_ne _ _ h, bind_self, bind_self]
  · rw [bind_of_ne _ v hn]
    by_cases hn' : n = name'
    · subst hn'
      rw [bind_self, bind_self]
    · rw [bind_of_ne _ _ hn', bind_of_ne _ _ hn', bind_of_ne _ _ hn]

/-- The scope of an index keeps a variable bound outside, unless that is the last index. -/
theorem withLastIndex_bind (env : Environment) {name : String} (h : name ≠ Expr.lastIndexName)
    (v indexable : Value) :
    (env.bind name v).withLastIndex indexable = (env.withLastIndex indexable).bind name v := by
  unfold withLastIndex
  cases indexable.length with
  | ok length => exact env.bind_comm h v _
  | error f => rfl

/-- A variable that is bound is read as what it is bound to, be that undefined. -/
theorem read_bind_self (env : Environment) {name : String} (h : name ≠ Expr.lastIndexName)
    (v : Value) : (env.bind name v).read name = .ok v := by
  rw [read, bind_self]
  exact if_neg fun hopen => h hopen.1

theorem read_bind_of_ne (env : Environment) {name n : String} (v : Value) (h : n ≠ name) :
    (env.bind name v).read n = env.read n := by
  rw [read, read, bind_of_ne _ _ h]

end Environment

namespace Expr

/-! ## Substitution -/

/-- What is put in the place of a reference to the name: the value, at the position of the reference. -/
def inline? (name : String) (v : Value) : Expr → Option Expr
  | reference n p => if n = name then some (constant v p) else none
  | _ => none

/-- The expression with a value as a literal in the place of each reference to the name. -/
def substitute (name : String) (v : Value) (e : Expr) : Expr :=
  e.replaceTopmost (inline? name v)

section
variable {name : String} {v : Value} {e : Expr}

theorem inline?_eq_some {r : Expr} (h : inline? name v e = some r) :
    ∃ p, e = reference name p ∧ r = constant v p := by
  cases e with
  | reference n p =>
    by_cases hn : n = name
    · subst hn
      rw [inline?, if_pos rfl] at h
      cases h
      exact ⟨p, rfl, rfl⟩
    · rw [inline?, if_neg hn] at h
      cases h
  | _ => cases h

theorem ne_of_inline?_eq_none {n : String} {p : Position}
    (h : inline? name v (reference n p) = none) : n ≠ name := by
  rintro rfl
  rw [inline?, if_pos rfl] at h
  cases h

end

/-! ## Evaluation -/

/-- **Substitution binds.**  The expression with the value in it gives outside what the expression gives
where the name is bound. -/
theorem evaluate_substitute {name : String} (h : name ≠ lastIndexName) (s : Settings) (v : Value)
    (e : Expr) (env : Environment) :
    (e.substitute name v).evaluate s env = e.evaluate s (env.bind name v) := by
  induction e using induction_on_children generalizing env with
  | node e ih =>
    unfold substitute at ih ⊢
    cases hinline : inline? name v e with
    | some r =>
      obtain ⟨p, rfl, rfl⟩ := inline?_eq_some hinline
      rw [replaceTopmost_of_eq_some hinline, evaluate_constant, evaluate, env.read_bind_self h]
    | none =>
      have hindex : ∀ env env' w, env' = env.bind name v →
          Environment.withLastIndex env' w = (Environment.withLastIndex env w).bind name v := by
        rintro env _ w rfl
        exact env.withLastIndex_bind h v w
      have hread : ∀ n p, e = reference n p → env.read n = (env.bind name v).read n := by
        rintro n p rfl
        exact (env.read_bind_of_ne v (ne_of_inline?_eq_none hinline)).symm
      have hchildren : ∀ c ∈ e.children, ∀ env env', env' = env.bind name v →
          (c.replaceTopmost (inline? name v)).evaluate s env = c.evaluate s env' := by
        rintro c hc env _ rfl
        exact ih c hc env
      rw [replaceTopmost_of_eq_none hinline]
      exact evaluate_mapChildren hindex hread (fun _ _ => rfl) hchildren rfl

/-- **Declaring a variable is inlining it.**  In a scope that declares a name, an expression gives what it
gives outside with the declared value in the place of each reference to the name: the same value with the
same positions, or the same fault at the same position. -/
theorem evaluate_declare_eq_evaluate_substitute {name : String} (h : name ≠ lastIndexName)
    (s : Settings) (v : Value) (e : Expr) (env : Environment) :
    e.evaluate s (Scope.declare { below := env } name v).environment =
      (e.substitute name v).evaluate s env := by
  have henv : Scope.environment { below := env } = env := rfl
  rw [Scope.environment_declare, henv, evaluate_substitute h]

/-- A variable declared as undefined, in the index of a subscript and in an entry that another one
overwrites. -/
theorem evaluate_substitute_undefined_in_index :
    let env := Environment.empty.bind "a" (.array [.null])
    let index := rangeFrom (reference "x" ⟨1, 7⟩) ⟨1, 8⟩
    let indexed := subscript (reference "a" ⟨1, 5⟩) index ⟨1, 6⟩
    let e := map [("k", reference "x" ⟨1, 2⟩), ("k", indexed)] ⟨1, 1⟩
    let inner := (Scope.declare { below := env } "x" .undefined).environment
    "x" ≠ lastIndexName ∧ e.evaluate {} inner = (e.substitute "x" .undefined).evaluate {} env ∧
      e.evaluate {} inner =
        .error ⟨.evaluation (.binary .range .undefined .number), some ⟨1, 8⟩⟩ := by
  intro env index indexed e inner
  have hname : "x" ≠ lastIndexName := by decide
  exact ⟨hname, evaluate_declare_eq_evaluate_substitute hname {} .undefined e env, rfl⟩

-- The last index is bound anew by the subscript, and so what it was declared as is not seen there.
example :
    let e := subscript (literal (.array [.null]) ⟨1, 1⟩) (reference lastIndexName ⟨1, 3⟩) ⟨1, 2⟩
    let inner := (Scope.declare { below := .empty } lastIndexName .null).environment
    (e.evaluate {} inner).toOption.isSome = true ∧
      (e.substitute lastIndexName .null).evaluate {} .empty =
        .error ⟨.index "[ null ]" "null", some ⟨1, 2⟩⟩ := ⟨by decide +kernel, rfl⟩

end Expr
end ExprLang
