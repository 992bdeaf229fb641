import ExprLang.Expr.Basic
import ExprLang.Value.Order

/-!
# Equal expressions

Two expressions are equal when they have the same shape, the same positions and equal literals.  The positions
of nodes count; those inside the values of literals do not, since equal values may stand anywhere.
-/

namespace ExprLang
namespace Expr

mutual

/-- Whether two expressions are equal. -/
def equal : Expr → Expr → Bool
  | literal v p, literal w q => v.equal w && p == q
  | reference m p, reference n q => m == n && p == q
  | array as p, array bs q => equalElements as bs && p == q
  | map as p, map bs q => equalEntries as bs && p == q
  | unary o a p, unary o' b q => o == o' && equal a b && p == q
  | subscript a i p, subscript b j q => equal a b && equal i j && p == q
  | binary a o b p, binary c o' d q => equal a c && o == o' && equal b d && p == q
  | _, _ => false
termination_by structural e => e

/-- Whether two lists of expressions are equal, one by one. -/
def equalElements : List Expr → List Expr → Bool
  | [], [] => true
  | a :: as, b :: bs => equal a b && equalElements as bs
  | _, _ => false
termination_by structural elements => elements

/-- Whether two lists of entries are equal, one by one. -/
def equalEntries : List (String × Expr) → List (String × Expr) → Bool
  | [], [] => true
  | (j, a) :: as, (k, b) :: bs => j == k && equal a b && equalEntries as bs
  | _, _ => false
termination_by structural entries => entries

end

end Expr
end ExprLang
