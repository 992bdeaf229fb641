import ExprLang.Evaluation
import ExprLang.Expr.Grouping

/-!
# Folding constants

Folding replaces the parts of an expression that have the same value wherever they are evaluated by literals
of that value.  It works from the leaves up: a node all of whose children are literals is evaluated, without
any variables, and becomes a literal at its position if it has a value.  A node that runs into a fault stays, so
that the fault is raised when the expression is evaluated.

Ranges are never folded, though their bounds are: whoever evaluates the expression may have a limit on the
length of ranges, and not the one in force here.  An array or a map display without elements has no children
and folds.

A `Formula` is an expression that was regrouped when it was made.
-/

namespace ExprLang
namespace Expr

/-- Whether a node may be folded: it is not a range, and its children are literals. -/
def isFoldable (e : Expr) : Bool :=
  e.binaryOp? != some .range && e.children.all isLiteral

/-- A node whose children are folded, folded itself if it may be and has a value. -/
def foldNode (settings : Settings) (e : Expr) : Expr :=
  if e.isFoldable then
    match e.evaluate settings .empty with
    | .ok v => constant v e.position
    | .error _ => e
  else e

mutual

/-- The expression with its constant parts replaced by literals. -/
def fold (settings : Settings) : Expr → Expr
  | literal v p => literal v p
  | reference name p => reference name p
  | array elements p => foldNode settings (array (foldElements settings elements) p)
  | map entries p => foldNode settings (map (foldEntries settings entries) p)
  | unary op operand p => foldNode settings (unary op (fold settings operand) p)
  | subscript indexable index p =>
    foldNode settings (subscript (fold settings indexable) (fold settings index) p)
  | binary left op right p =>
    foldNode settings (binary (fold settings left) op (fold settings right) p)

/-- Several expressions, each folded. -/
def foldElements (settings : Settings) : List Expr → List Expr
  | [] => []
  | e :: rest => fold settings e :: foldElements settings rest

/-- The entries of a map display, each folded. -/
def foldEntries (settings : Settings) : List (String × Expr) → List (String × Expr)
  | [] => []
  | (key, e) :: rest => (key, fold settings e) :: foldEntries settings rest

end

end Expr

/-- An expression that has been regrouped by precedence. -/
structure Formula where
  root : Expr

namespace Formula

/-- The formula of an expression that was read without regard to precedence. -/
def ofExpr (e : Expr) : Formula := ⟨e.regroup⟩

/-- The formula with its constant parts folded. -/
def fold (f : Formula) (settings : Settings) : Formula := ⟨f.root.fold settings⟩

/-- The value of a formula. -/
def evaluate (f : Formula) (settings : Settings) (env : Environment) : Outcome Value :=
  f.root.evaluate settings env

end Formula
end ExprLang
