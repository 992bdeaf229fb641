import ExprLang.Value.Basic

/-!
# Variables

Evaluation asks one thing of its surroundings: the value of a name.  An *environment* is that and nothing
more, a function from names to values, which is undefined for the names that are not bound.

What host programs fill in are *tables*, and two things hold one:

* a *context* is the outermost scope; its host decides whether a name may be declared again;
* a *scope* stands on top of an environment, with a table of its own that hides what is below.

Looking a name up in a scope asks its own table first, and the environment below only if the name is not in
it.  A name that is bound to the undefined value is in the table and hides as any other does.

## Writes

Tables and contexts are written to in place.  A write can fail, and there is a table behind it all the same, so
`write` gives both: the state that the write leaves behind, and its result.  `declare` and `assign` are for those
who go on after a success only.
-/

namespace ExprLang

/-- What evaluation sees: the value of every name. -/
abbrev Environment := String → Value

namespace Environment

/-- No name is bound. -/
def empty : Environment := fun _ => .undefined

/-- One name bound anew. -/
def bind (env : Environment) (name : String) (v : Value) : Environment :=
  fun n => if n = name then v else env n

@[simp] theorem bind_self (env : Environment) (name : String) (v : Value) :
    env.bind name v name = v := if_pos rfl

theorem bind_of_ne (env : Environment) {name n : String} (v : Value) (h : n ≠ name) :
    env.bind name v n = env n := if_neg h

end Environment

/-! ## Writes -/

/-- What a host does to a variable. -/
inductive Write where
  | declare (name : String) (v : Value)
  | assign (name : String) (v : Value)

namespace Write

def name : Write → String
  | declare name _ | assign name _ => name

def value : Write → Value
  | declare _ v | assign _ v => v

end Write

/-- What comes of a write to a state of some type: the state behind it, whether or not it fails, and its
result. -/
structure Effect (σ : Type) where
  state : σ
  result : Outcome Unit

namespace Effect
variable {σ τ : Type}

/-- The effect on a greater state, of which the one that is written to is a part. -/
def map (f : σ → τ) (e : Effect σ) : Effect τ := ⟨f e.state, e.result⟩

/-- The state behind a write that succeeded, or the fault. -/
def outcome (e : Effect σ) : Outcome σ := e.result.map fun _ => e.state

end Effect

/-! ## Tables -/

/-- A table of variables. -/
structure Table where
  entries : Entries Value
  sorted : entries.Sorted

namespace Table

/-- The table without variables. -/
def empty : Table := ⟨[], Entries.sorted_nil⟩

/-- The table of a list of bindings; the last one of a name counts. -/
def ofList (bindings : List (String × Value)) : Table :=
  ⟨.ofList bindings, Entries.sorted_ofList bindings⟩

/-- The names of the variables, in order. -/
def names (t : Table) : List String := t.entries.keys

/-- How many variables there are. -/
def size (t : Table) : Nat := t.entries.length

def isEmpty (t : Table) : Bool := t.entries.isEmpty

def contains (t : Table) (name : String) : Bool := Entries.contains name t.entries

/-- The value of a name, undefined if there is no such variable. -/
def value (t : Table) (name : String) : Value := (Entries.lookup name t.entries).getD .undefined

/-- Binds a name, whether or not it was bound. -/
def declare (t : Table) (name : String) (v : Value) : Table :=
  ⟨Entries.insert name v t.entries, Entries.sorted_insert t.sorted⟩

/-- What a write does to a table.  A declaration binds the name.  An assignment puts the value into the place of
the one that the name is bound to, and fails if there is no such place. -/
def write (t : Table) : Write → Effect Table
  | .declare name v => ⟨t.declare name v, .ok ()⟩
  | .assign name v =>
    ⟨⟨(Entries.overwrite name v t.entries).1, Entries.sorted_overwrite t.sorted⟩,
      if (Entries.overwrite name v t.entries).2 then .ok () else .error (.complain (.undeclared name))⟩

/-- Binds a name that is bound already, and no other. -/
def assign (t : Table) (name : String) (v : Value) : Outcome Table := (t.write (.assign name v)).outcome

end Table

/-- What a host does with the declaration of a name that is declared already. -/
inductive Redeclaration where
  | overwrites
  | isRefused
  deriving DecidableEq, Repr

/-- The outermost scope: a table in the keeping of a host. -/
structure Context where
  table : Table := .empty
  redeclaration : Redeclaration := .overwrites

namespace Context

/-- Whether the host refuses a write. -/
def refuses (c : Context) : Write → Bool
  | .declare name _ => c.redeclaration == .isRefused && c.table.contains name
  | .assign _ _ => false

/-- What a write does to a context: what it does to the table, unless the host refuses it. -/
def write (c : Context) (w : Write) : Effect Context :=
  if c.refuses w then ⟨c, .error (.complain (.redeclared w.name))⟩
  else (c.table.write w).map fun t => { c with table := t }

/-- A host that lets declarations overwrite refuses nothing. -/
theorem write_of_overwrites {c : Context} (h : c.redeclaration = .overwrites) (w : Write) :
    c.write w = (c.table.write w).map fun t => { c with table := t } := by
  have hrefuses : ¬ c.refuses w = true := by
    cases w with
    | declare name v =>
      rw [refuses, h]
      exact Bool.false_ne_true
    | assign name v => exact Bool.false_ne_true
  exact if_neg hrefuses

/-- Declares a name, if the host allows it. -/
def declare (c : Context) (name : String) (v : Value) : Outcome Context :=
  (c.write (.declare name v)).outcome

/-- Gives a declared name another value. -/
def assign (c : Context) (name : String) (v : Value) : Outcome Context :=
  (c.write (.assign name v)).outcome

/-- What evaluation sees of the context. -/
def environment (c : Context) : Environment := c.table.value

end Context

/-- A scope with a table of its own, on top of an environment. -/
structure Scope where
  below : Environment
  locals : Table := .empty

namespace Scope

/-- Declares a name in the scope itself. -/
def declare (s : Scope) (name : String) (v : Value) : Scope :=
  { s with locals := s.locals.declare name v }

/-- What evaluation sees of the scope: its own variables, and below them what it stands on. -/
def environment (s : Scope) : Environment := fun name =>
  if s.locals.contains name then s.locals.value name else s.below name

/-- One scope for each list of declarations, each on top of the one before. -/
def nest (below : Environment) (scopes : List (List (String × Value))) : Environment :=
  scopes.foldl (fun env bindings => environment ⟨env, .ofList bindings⟩) below

end Scope
end ExprLang
