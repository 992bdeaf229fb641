import ExprLang.Proofs.Evaluation.FreshFault
import ExprLang.Proofs.Expr.Bare
import ExprLang.Proofs.Folding.Meaning
import ExprLang.Proofs.Value.Bare

/-!
# Positions are metadata

Take away all positions: those in an expression, in its literals, and in the values that the environment
gives.  Then evaluation gives the same value without its positions, or a fault with the same cause
(`evaluate_bare`).  Regrouping and folding make the same expression without its positions
(`bare_regroup`, `bare_fold`).  So positions are carried along and never asked for.

For evaluation two things have to be put together.

* Operations do not look at positions (`Proofs.Value.Bare`), and what they raise has none
  (`Proofs.Evaluation.FreshFault`).  So an operation gives the bare outcome of what it gives otherwise
  (`UnaryOp.apply_bare`, `BinaryOp.apply_bare`), and this passes through sequences of steps
  (`Outcome.bare_bind`).
* A node locates what it gives, at its own position or, without positions, nowhere; and the bare outcome
  is the same (`Outcome.bare_located`).

Folding evaluates some nodes and asks whether there is a value.  There is one on the one side just if there
is one on the other, so the same nodes are folded.
-/

namespace ExprLang

/-! ## Bare outcomes -/

/-- The fault without its position. -/
def Fault.bare (f : Fault) : Fault := { f with position := none }

namespace Outcome
variable {α β α' β' : Type}

/-- The outcome without positions, where `f` takes them away from a result. -/
def bareBy (f : α → β) : Outcome α → Outcome β
  | .ok a => .ok (f a)
  | .error fault => .error fault.bare

/-- The value without its positions, or the fault without its position. -/
def bare (o : Outcome Value) : Outcome Value := bareBy Value.bare o

/-- **A sequence of steps is bare if the steps are.** -/
theorem bareBy_bind {f : α → α'} {g : β → β'} {step : α → Outcome β} {step' : α' → Outcome β'}
    (h : ∀ a, bareBy g (step a) = step' (f a)) (o : Outcome α) :
    bareBy g (o >>= step) = bareBy f o >>= step' := by
  cases o with
  | ok a => exact h a
  | error fault => rfl

/-- Without positions it makes no difference where an outcome is located. -/
theorem bare_located (p : Position) (o : Outcome Value) :
    bare (located p o) = located .unknown (bare o) := by
  cases o with
  | ok v =>
    show Except.ok (v.withPosition p).bare = Except.ok (v.bare.withPosition .unknown)
    rw [Value.bare_withPosition, Value.withPosition_unknown_bare]
  | error f =>
    show Except.error (f.locate p).bare = Except.error (f.bare.locate .unknown)
    rw [Fault.locate_unknown, Fault.bare, Fault.locate_cause, Fault.bare]

/-- What fails freshly has no positions to take away but those of its value. -/
theorem bareBy_of_failsFresh {o : Outcome α} (h : FailsFresh o) (f : α → β) :
    bareBy f o = Except.map f o := by
  cases o with
  | ok a => rfl
  | error fault =>
    have hbare : fault.bare = fault := by
      rw [Fault.bare, ← (h fault rfl).position_eq]
    exact congrArg Except.error hbare

end Outcome

/-! ## Operators and variables -/

theorem UnaryOp.apply_bare (op : UnaryOp) (v : Value) :
    op.apply v.bare = Outcome.bare (op.apply v) := by
  rw [Outcome.bare, Outcome.bareBy_of_failsFresh (op.failsFresh_apply v)]
  cases op with
  | plus => exact v.plus_bare
  | minus => exact v.minus_bare
  | not => exact congrArg (fun b => Except.ok (Value.boolean !b)) v.truthy_bare
  | group => rfl

theorem compareBy_bare (test : Ordering → Bool) (v w : Value) :
    compareBy test v.bare w.bare = Except.map Value.bare (compareBy test v w) := by
  rw [compareBy, compareBy, Value.compare_bare]
  cases v.compare w <;> rfl

theorem Settings.range_bare (s : Settings) (v w : Value) :
    s.range v.bare w.bare = Except.map Value.bare (s.range v w) := by
  rw [Settings.range, Settings.range, Value.rangeBounds_bare]
  cases v.rangeBounds w with
  | error f => rfl
  | ok bounds =>
    cases s.maxRangeLength with
    | none => rfl
    | some limit =>
      show (if limit < Run.inclusiveLength bounds.1 bounds.2 then _ else _) =
        Except.map Value.bare (if limit < Run.inclusiveLength bounds.1 bounds.2 then _ else _)
      split <;> rfl

theorem BinaryOp.apply_bare (s : Settings) (op : BinaryOp) (v w : Value) :
    op.apply s v.bare w.bare = Outcome.bare (op.apply s v w) := by
  rw [Outcome.bare, Outcome.bareBy_of_failsFresh (op.failsFresh_apply s v w)]
  cases op with
  | add => exact v.add_bare w
  | sub | mul | div | mod => exact Value.arithmetic_bare _ _ v w
  | and =>
    show Except.ok (Value.boolean (v.bare.truthy && w.bare.truthy)) = _
    rw [Value.truthy_bare, Value.truthy_bare]
    rfl
  | or =>
    show Except.ok (Value.boolean (v.bare.truthy || w.bare.truthy)) = _
    rw [Value.truthy_bare, Value.truthy_bare]
    rfl
  | less | lessEq | eq | notEq | greaterEq | greater => exact compareBy_bare _ v w
  | range => exact s.range_bare v w

namespace Environment

/-- The environment with all its values bare. -/
def bare (env : Environment) : Environment := fun name => (env name).bare

theorem bare_empty : bare .empty = .empty := rfl

theorem bare_bind (env : Environment) (name : String) (v : Value) :
    bare (env.bind name v) = env.bare.bind name v.bare := by
  funext n
  unfold bare bind
  split <;> rfl

theorem read_bare (env : Environment) (name : String) :
    env.bare.read name = Outcome.bare (env.read name) := by
  have hundefined : (env.bare name).isUndefined = (env name).isUndefined := by
    rw [Value.isUndefined, Value.isUndefined, bare, Value.kind_bare]
  rw [Outcome.bare, Outcome.bareBy_of_failsFresh (env.failsFresh_read name), read, read, hundefined]
  split <;> rfl

theorem withLastIndex_bare (env : Environment) (v : Value) :
    env.bare.withLastIndex v.bare = bare (env.withLastIndex v) := by
  unfold withLastIndex
  rw [Value.length_bare]
  cases v.length with
  | error f => rfl
  | ok length => rw [bare_bind, Value.bare_number]

end Environment

/-! ## Expressions -/

namespace Expr

section
variable {s : Settings} {env : Environment}

theorem evaluateElements_bare {elements : List Expr}
    (h : ∀ e ∈ elements, e.bare.evaluate s env.bare = Outcome.bare (e.evaluate s env)) :
    evaluateElements s (elements.map bare) env.bare =
      Outcome.bareBy (List.map Value.bare) (evaluateElements s elements env) := by
  induction elements with
  | nil => rfl
  | cons e rest ih =>
    have hhead := h e List.mem_cons_self
    have htail := ih fun c hc => h c (List.mem_cons_of_mem _ hc)
    rw [List.map_cons, evaluateElements, evaluateElements, hhead, htail]
    refine (Outcome.bareBy_bind (fun v => ?_) _).symm
    refine Outcome.bareBy_bind (fun vs => ?_) _
    rfl

theorem evaluateEntries_bare {entries : List (String × Expr)}
    (h : ∀ e ∈ entries, e.2.bare.evaluate s env.bare = Outcome.bare (e.2.evaluate s env)) :
    evaluateEntries s (entries.map fun e => (e.1, bare e.2)) env.bare =
      Outcome.bareBy (List.map (Prod.map id Value.bare)) (evaluateEntries s entries env) := by
  induction entries with
  | nil => rfl
  | cons e rest ih =>
    have hhead := h e List.mem_cons_self
    have htail := ih fun c hc => h c (List.mem_cons_of_mem _ hc)
    rw [List.map_cons, evaluateEntries, evaluateEntries, hhead, htail]
    refine (Outcome.bareBy_bind (fun v => ?_) _).symm
    refine Outcome.bareBy_bind (fun vs => ?_) _
    rfl

end

/-- **Evaluation does not look at positions.** -/
theorem evaluate_bare (s : Settings) (e : Expr) (env : Environment) :
    e.bare.evaluate s env.bare = Outcome.bare (e.evaluate s env) := by
  induction e using Expr.induction generalizing env with
  | literal v p => rw [bare, evaluate, evaluate, Outcome.bare_located]; rfl
  | reference name p => rw [bare, evaluate, evaluate, Outcome.bare_located, env.read_bare]
  | array elements p ih =>
    rw [bare, evaluate, evaluate, Outcome.bare_located, bareElements_eq_map,
      evaluateElements_bare fun e he => ih e he env]
    refine congrArg (Outcome.located .unknown) (Outcome.bareBy_bind (fun items => ?_) _).symm
    exact congrArg Except.ok (Value.bare_array items .unknown)
  | map entries p ih =>
    rw [bare, evaluate, evaluate, Outcome.bare_located, bareEntries_eq_map,
      evaluateEntries_bare fun e he => ih e he env]
    refine congrArg (Outcome.located .unknown) (Outcome.bareBy_bind (fun bindings => ?_) _).symm
    rw [Entries.ofList_map]
    exact congrArg Except.ok (Value.bare_map (Entries.ofList bindings) .unknown)
  | unary op operand p ih =>
    rw [bare, evaluate, evaluate, Outcome.bare_located, ih]
    refine congrArg (Outcome.located .unknown) (Outcome.bareBy_bind (fun v => ?_) _).symm
    exact (op.apply_bare v).symm
  | subscript indexable index p ih ih' =>
    rw [bare, evaluate, evaluate, Outcome.bare_located, ih]
    refine congrArg (Outcome.located .unknown) (Outcome.bareBy_bind (fun v => ?_) _).symm
    rw [env.withLastIndex_bare, ih']
    refine Outcome.bareBy_bind (fun i => ?_) _
    rw [Outcome.bareBy_of_failsFresh (v.failsFresh_index i), Value.index_bare]
  | binary left op right p ih ih' =>
    rw [bare, evaluate, evaluate, Outcome.bare_located, ih, ih']
    refine congrArg (Outcome.located .unknown) (Outcome.bareBy_bind (fun v => ?_) _).symm
    exact Outcome.bareBy_bind (fun w => (op.apply_bare s v w).symm) _

/-! ## Folding -/

theorem isFoldable_bare (e : Expr) : e.bare.isFoldable = e.isFoldable := by
  rw [isFoldable, isFoldable, binaryOp?_bare, children_bare, List.all_map]
  simp [Function.comp_def]

theorem bare_constant (v : Value) (p : Position) :
    (constant v p).bare = constant v.bare .unknown := by
  rw [constant, constant, bare, Value.bare_withPosition, Value.withPosition_unknown_bare]

/-- A node is folded without its positions just if it is folded, and to the same value. -/
theorem bare_foldNode (s : Settings) (e : Expr) : (foldNode s e).bare = foldNode s e.bare := by
  have hevaluate : e.bare.evaluate s .empty = Outcome.bare (e.evaluate s .empty) := by
    rw [← evaluate_bare, Environment.bare_empty]
  rw [foldNode, foldNode, isFoldable_bare, hevaluate, position_bare]
  split
  · cases e.evaluate s .empty with
    | ok v => exact bare_constant v e.position
    | error f => rfl
  · rfl

theorem isLeaf_bare (e : Expr) : e.bare.isLeaf = e.isLeaf := by
  cases e <;> rfl

/-- **Folding does not look at positions.** -/
theorem bare_fold (s : Settings) (e : Expr) : (e.fold s).bare = e.bare.fold s := by
  induction e using fold_induction (s := s) with
  | leaf e h => rw [fold_of_isLeaf s (by rw [isLeaf_bare, h])]
  | node e h ih =>
    rw [bare_foldNode, bare_mapChildren ih, fold_of_not_isLeaf s (by rw [isLeaf_bare, h])]

/-! ## All passes -/

/-- **Positions are metadata.**  Without any positions, in the expression, in its literals and in what
the environment binds, evaluation gives the same value without its positions, or a fault with the
same cause, and regrouping and folding make the same expression without its positions. -/
theorem evaluate_bare_and_regroup_and_fold (s : Settings) (e : Expr) (env : Environment) :
    e.bare.evaluate s env.bare = Outcome.bare (e.evaluate s env) ∧
      e.regroup.bare = e.bare.regroup ∧ (e.fold s).bare = e.bare.fold s :=
  ⟨evaluate_bare s e env, bare_regroup e, bare_fold s e⟩

end Expr
end ExprLang
