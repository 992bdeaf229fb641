import ExprLang.Kind
import ExprLang.Operator
import ExprLang.Position

/-!
# Faults

What goes wrong while values are converted, indexed or computed.  A fault is a cause and, once known, the
position of the innermost node that raised it.  A cause keeps offending values as the texts they are shown
as, never as values.

There are five classes.  *Conversion* and *dereference* say that a value is of the wrong kind.  *Evaluation*
is what an operator or a scope complains about, and each such complaint is a constructor of `Complaint`
with its wording in one place.  *Index* and *index out of bounds* come from subscripts; both count as
evaluation faults too.

Two things happen to a fault on its way out.  `locate` gives it a position, but only if it has none and the
position is a known one, so the innermost known position stays.  `reword` turns a conversion or dereference
into the complaint of the operator that asked for it, and leaves the other classes alone.
-/

namespace ExprLang

/-- What an operator, a scope or a look-up of a kind complains about. -/
inductive Complaint where
  /-- No kind has this name. -/
  | unknownKind (name : String)
  /-- The value has no elements to count. -/
  | noLength (value : String) (kind : Kind)
  | unary (op : UnaryOp) (operand : Kind)
  | binary (op : BinaryOp) (left right : Kind)
  | incomparable (left : String) (leftKind : Kind) (right : String) (rightKind : Kind)
  | rangeTooLong (first last : Int) (length limit : Nat)
  /-- The end of a range was left open outside a subscript. -/
  | openRange
  | undeclared (name : String)
  | redeclared (name : String)
  /-- A complaint in the words of the caller. -/
  | other (message : String)
  deriving DecidableEq, Repr

/-- The wording of a complaint. -/
def Complaint.message : Complaint → String
  | unknownKind name => s!"unknown type name '{name}'"
  | noLength value kind => s!"value '{value}' of type '{kind.name}' has no length"
  | unary op operand => s!"cannot apply unary '{op.symbol}' to {operand.name}"
  | binary op left right => s!"cannot apply '{op.symbol}' to {left.name} and {right.name}"
  | incomparable left leftKind right rightKind =>
    s!"cannot compare '{left}' of type {leftKind.name} with '{right}' of type {rightKind.name}"
  | rangeTooLong first last length limit =>
    s!"range {first}..{last} has {length} elements, more than the limit of {limit}"
  | openRange => "open-ended range requires a subscript of an indexable value"
  | undeclared name => s!"cannot assign to undeclared variable '{name}'"
  | redeclared name => s!"'{name}' already declared"
  | other message => message

/-- What went wrong. -/
inductive Cause where
  /-- The value has no counterpart of the other kind. -/
  | conversion (value : String) (source target : Kind)
  /-- The value was read as one of a kind that it is not of. -/
  | dereference (value : String) (source target : Kind)
  | evaluation (complaint : Complaint)
  /-- The value cannot be indexed at all, or not with such an index, or has no such key. -/
  | index (indexable index : String)
  /-- The index is of the right kind but points outside the value. -/
  | indexOutOfBounds (indexable index : String)
  deriving DecidableEq, Repr

namespace Cause

/-- The class of a cause, as data texts name it. -/
def className : Cause → String
  | conversion .. => "conversion"
  | dereference .. => "dereference"
  | evaluation .. => "evaluation"
  | index .. => "index"
  | indexOutOfBounds .. => "index_out_of_bounds"

/-- The message of a cause. -/
def message : Cause → String
  | conversion value source target =>
    s!"cannot convert value '{value}' of type '{source.name}' to type '{target.name}'"
  | dereference value source target =>
    s!"cannot dereference value '{value}' of type '{source.name}' as type '{target.name}'"
  | evaluation complaint => complaint.message
  | index indexable i => s!"cannot index value '{indexable}' with index '{i}'"
  | indexOutOfBounds indexable i => s!"index '{i}' is out of bounds for value '{indexable}'"

/-- Whether the cause is one of a subscript. -/
def isIndex : Cause → Bool
  | index .. | indexOutOfBounds .. => true
  | _ => false

/-- Whether the cause is one that evaluation can have; those of subscripts are. -/
def isEvaluation : Cause → Bool
  | evaluation _ => true
  | c => c.isIndex

/-- The complaint in place of a conversion or dereference; other causes stay. -/
def reword (complaint : Complaint) : Cause → Cause
  | conversion .. | dereference .. => evaluation complaint
  | c => c

end Cause

/-- A cause and the position of the innermost node that raised it, if that is known. -/
structure Fault where
  cause : Cause
  position : Option Position := none
  deriving DecidableEq, Repr

namespace Fault

/-- A fault of evaluation, at no position yet. -/
def complain (complaint : Complaint) : Fault := { cause := .evaluation complaint }

/-- The message of a fault; its position is not part of it. -/
def message (f : Fault) : String := f.cause.message

/-- Gives a fault a position, unless it has one or the position is unknown. -/
def locate (f : Fault) (p : Position) : Fault :=
  match f.position with
  | some _ => f
  | none => if p.known then { f with position := some p } else f

/-- Turns a conversion or dereference into a complaint; the position stays. -/
def reword (f : Fault) (complaint : Complaint) : Fault :=
  { f with cause := f.cause.reword complaint }

@[simp] theorem locate_unknown (f : Fault) : f.locate .unknown = f := by
  unfold locate
  split <;> rfl

@[simp] theorem locate_cause (f : Fault) (p : Position) : (f.locate p).cause = f.cause := by
  unfold locate
  split
  · rfl
  · split <;> rfl

end Fault

/-- What an operation on values gives: a result, or the fault that stopped it. -/
abbrev Outcome (α : Type) := Except Fault α

/-- Reports a conversion that fails inside an operator as the operator's complaint. -/
def Outcome.reword {α : Type} (complaint : Complaint) : Outcome α → Outcome α
  | .ok a => .ok a
  | .error f => .error (f.reword complaint)

end ExprLang
