import ExprLang.Environment
import ExprLang.Expr.Basic
import ExprLang.Value.Indexing

/-!
# Evaluation

The value of an expression in an environment, or the fault that it runs into.  Operands are evaluated from left
to right and always all of them: `&&` and `||` do not spare their right side, and an entry of a map display is
evaluated even if a later entry has the same key.

Every node puts its mark on what it gives: a value stands at the position of the node that produced it last,
and a fault is located at the innermost node with a known position.  `Outcome.located` does both.

The index of a subscript is evaluated with `Expr.lastIndexName` bound to the last index of what is being
indexed, so that open ranges reach to its end.  If that has no length, the name keeps the meaning that it has
outside.  A length of zero makes the last index -1.

`Settings` can limit how long a range may be.  The limit is checked before the range is built, and nothing else
depends on it.
-/

namespace ExprLang

/-- What a host program may restrict. -/
structure Settings where
  /-- How many elements a range may have, if there is a limit. -/
  maxRangeLength : Option Nat := none
  deriving DecidableEq, Repr

/-- What a node gives: a value at its position, or a fault located there if it is not located yet. -/
def Outcome.located (p : Position) : Outcome Value → Outcome Value
  | .ok v => .ok (v.withPosition p)
  | .error f => .error (f.locate p)

@[simp] theorem Outcome.located_ok (p : Position) (v : Value) :
    Outcome.located p (.ok v) = .ok (v.withPosition p) := rfl

@[simp] theorem Outcome.located_error (p : Position) (f : Fault) :
    Outcome.located p (.error f) = .error (f.locate p) := rfl

/-! ## Operators -/

/-- What an operator with one operand gives. -/
def UnaryOp.apply : UnaryOp → Value → Outcome Value
  | plus, v => v.plus
  | minus, v => v.minus
  | not, v => .ok v.not
  | group, v => .ok v

/-- The range `v..w`, if it is not too long. -/
def Settings.range (settings : Settings) (v w : Value) : Outcome Value := do
  let (first, last) ← v.rangeBounds w
  match settings.maxRangeLength with
  | some limit =>
    let length := Run.inclusiveLength first last
    if limit < length then .error (.complain (.rangeTooLong first last length limit))
    else .ok (.range (Run.inclusive first last))
  | none => .ok (.range (Run.inclusive first last))

/-- A comparison as a boolean value. -/
def compareBy (test : Ordering → Bool) (v w : Value) : Outcome Value :=
  (v.compare w).map fun o => .boolean (test o)

/-- What an operator with two operands gives. -/
def BinaryOp.apply (settings : Settings) : BinaryOp → Value → Value → Outcome Value
  | add => Value.add
  | sub => Value.sub
  | mul => Value.mul
  | div => Value.div
  | mod => Value.mod
  | and => fun v w => .ok (v.and w)
  | or => fun v w => .ok (v.or w)
  | less => compareBy Ordering.isLT
  | lessEq => compareBy Ordering.isLE
  | eq => compareBy Ordering.isEq
  | notEq => compareBy Ordering.isNe
  | greaterEq => compareBy Ordering.isGE
  | greater => compareBy Ordering.isGT
  | range => settings.range

/-! ## Variables -/

/-- The value of a variable.  The open end of a range has one only inside a subscript. -/
def Environment.read (env : Environment) (name : String) : Outcome Value :=
  if name = Expr.lastIndexName ∧ (env name).isUndefined = true then .error (.complain .openRange)
  else .ok (env name)

/-- The environment of an index: the last index of what is indexed, if that has a length, is bound. -/
def Environment.withLastIndex (env : Environment) (indexable : Value) : Environment :=
  match indexable.length with
  | .ok length => env.bind Expr.lastIndexName (.number ((Number.ofInt length).sub (.ofInt 1)))
  | .error _ => env

/-! ## Expressions -/

namespace Expr

mutual

/-- The value of an expression. -/
def evaluate (settings : Settings) : Expr → Environment → Outcome Value
  | literal v p, _ => Outcome.located p (.ok v)
  | reference name p, env => Outcome.located p (env.read name)
  | array elements p, env => Outcome.located p do
    let items ← evaluateElements settings elements env
    return .array items
  | map entries p, env => Outcome.located p do
    let bindings ← evaluateEntries settings entries env
    return .map (Entries.ofList bindings)
  | unary op operand p, env => Outcome.located p do
    let v ← evaluate settings operand env
    op.apply v
  | subscript indexable index p, env => Outcome.located p do
    let v ← evaluate settings indexable env
    let i ← evaluate settings index (env.withLastIndex v)
    v.index i
  | binary left op right p, env => Outcome.located p do
    let v ← evaluate settings left env
    let w ← evaluate settings right env
    op.apply settings v w

/-- The values of several expressions, in order. -/
def evaluateElements (settings : Settings) : List Expr → Environment → Outcome (List Value)
  | [], _ => .ok []
  | e :: rest, env => do
    let v ← evaluate settings e env
    let vs ← evaluateElements settings rest env
    return v :: vs

/-- The values of the entries of a map display, in order and under their keys. -/
def evaluateEntries (settings : Settings) :
    List (String × Expr) → Environment → Outcome (List (String × Value))
  | [], _ => .ok []
  | (key, e) :: rest, env => do
    let v ← evaluate settings e env
    let vs ← evaluateEntries settings rest env
    return (key, v) :: vs

end

end Expr
end ExprLang
