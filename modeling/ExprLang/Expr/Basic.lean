import ExprLang.Operator
import ExprLang.Value.Basic

/-!
# Expressions

An expression is a tree of literals, references to variables, array and map displays, operators and
subscripts.  Each node has a position.  Parentheses are nodes: a group has the value of its operand, and its
purpose is to keep the operand apart when operators are regrouped.

A map display keeps its entries as they were written, repeated keys included; the last one counts when it is
evaluated.

## Open ranges

Inside a subscript a range may leave one end open: `a[2..]`, `a[..2]`.  The open end is a reference to the
variable `lastIndexName`, which a subscript binds to the last index of what it is applied to while its index
is evaluated.  So open ranges need no node of their own.
-/

namespace ExprLang

/-- An expression. -/
inductive Expr where
  | literal (value : Value) (position : Position)
  | reference (name : String) (position : Position)
  | array (elements : List Expr) (position : Position)
  | map (entries : List (String × Expr)) (position : Position)
  | unary (op : UnaryOp) (operand : Expr) (position : Position)
  | subscript (indexable index : Expr) (position : Position)
  | binary (left : Expr) (op : BinaryOp) (right : Expr) (position : Position)

namespace Expr

instance : Inhabited Expr := ⟨.literal .undefined .unknown⟩

/-- The position of a node. -/
def position : Expr → Position
  | literal _ p | reference _ p | array _ p | map _ p | unary _ _ p | subscript _ _ p
  | binary _ _ _ p => p

/-- A literal whose value stands where the node does. -/
def constant (value : Value) (p : Position) : Expr := literal (value.withPosition p) p

/-- The variable that stands for the last index of what is being subscripted. -/
def lastIndexName : String := "__AutoRangeParameter"

/-- `e..`: from `e` to the last index. -/
def rangeFrom (e : Expr) (p : Position) : Expr :=
  binary e .range (reference lastIndexName p) p

/-- `..e`: from the last index to `e`. -/
def rangeUpTo (e : Expr) (p : Position) : Expr :=
  binary (reference lastIndexName p) .range e p

/-- The direct children, from left to right. -/
def children : Expr → List Expr
  | literal _ _ | reference _ _ => []
  | array elements _ => elements
  | map entries _ => entries.map Prod.snd
  | unary _ operand _ => [operand]
  | subscript indexable index _ => [indexable, index]
  | binary left _ right _ => [left, right]

def isLiteral : Expr → Bool
  | literal _ _ => true
  | _ => false

/-- The operator of a binary node. -/
def binaryOp? : Expr → Option BinaryOp
  | binary _ op _ _ => some op
  | _ => none

/-! ## Induction -/

/-- What holds of every expression whose direct children have it holds of every expression. -/
theorem induction {motive : Expr → Prop}
    (literal : ∀ v p, motive (.literal v p))
    (reference : ∀ name p, motive (.reference name p))
    (array : ∀ elements p, (∀ e ∈ elements, motive e) → motive (.array elements p))
    (map : ∀ entries p, (∀ e ∈ entries, motive e.2) → motive (.map entries p))
    (unary : ∀ op operand p, motive operand → motive (.unary op operand p))
    (subscript : ∀ indexable index p, motive indexable → motive index →
      motive (.subscript indexable index p))
    (binary : ∀ left op right p, motive left → motive right → motive (.binary left op right p))
    (e : Expr) : motive e := by
  refine Expr.rec (motive_1 := motive) (motive_2 := fun elements => ∀ e ∈ elements, motive e)
    (motive_3 := fun entries => ∀ e ∈ entries, motive e.2) (motive_4 := fun e => motive e.2)
    literal reference (fun elements p h => array elements p h) (fun entries p h => map entries p h)
    (fun op operand p h => unary op operand p h)
    (fun indexable index p h h' => subscript indexable index p h h')
    (fun left op right p h h' => binary left op right p h h') ?_ ?_ ?_ ?_ ?_ e
  · exact fun e he => absurd he List.not_mem_nil
  · intro head tail hhead htail e he
    rcases List.mem_cons.1 he with rfl | h
    · exact hhead
    · exact htail e h
  · exact fun e he => absurd he List.not_mem_nil
  · intro head tail hhead htail e he
    rcases List.mem_cons.1 he with rfl | h
    · exact hhead
    · exact htail e h
  · exact fun _ _ h => h

/-! ## Variables -/

mutual

/-- Whether a variable is referred to anywhere in the expression. -/
def hasVariables : Expr → Bool
  | literal _ _ => false
  | reference _ _ => true
  | array elements _ => anyHasVariables elements
  | map entries _ => anyEntryHasVariables entries
  | unary _ operand _ => hasVariables operand
  | subscript indexable index _ => hasVariables indexable || hasVariables index
  | binary left _ right _ => hasVariables left || hasVariables right

/-- Whether one of several expressions refers to a variable. -/
def anyHasVariables : List Expr → Bool
  | [] => false
  | e :: rest => hasVariables e || anyHasVariables rest

/-- Whether one of the expressions of several entries refers to a variable. -/
def anyEntryHasVariables : List (String × Expr) → Bool
  | [] => false
  | (_, e) :: rest => hasVariables e || anyEntryHasVariables rest

end

end Expr
end ExprLang
