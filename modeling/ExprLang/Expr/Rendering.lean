import ExprLang.Expr.Basic
import ExprLang.Value.Rendering

/-!
# How expressions are shown

The text of an expression shows its grouping: every binary node stands in parentheses, whether or not it
needs them, and so does a group.  Literals are shown as their values are.
-/

namespace ExprLang
namespace Expr

mutual

/-- The text of an expression. -/
def text : Expr → String
  | literal value _ => value.text
  | reference name _ => name
  | array elements _ => "[" ++ ", ".intercalate (elementTexts elements) ++ "]"
  | map entries _ => "\x7b" ++ ", ".intercalate (entryTexts entries) ++ "\x7d"
  | unary .group operand _ => "(" ++ text operand ++ ")"
  | unary op operand _ => op.symbol ++ text operand
  | subscript indexable index _ => text indexable ++ "[" ++ text index ++ "]"
  | binary left op right _ => "(" ++ text left ++ " " ++ op.symbol ++ " " ++ text right ++ ")"

/-- The texts of several expressions. -/
def elementTexts : List Expr → List String
  | [] => []
  | e :: rest => text e :: elementTexts rest

/-- The texts of the entries of a map display, with their keys quoted. -/
def entryTexts : List (String × Expr) → List String
  | [] => []
  | (key, e) :: rest => ((Value.string key).text ++ ": " ++ text e) :: entryTexts rest

end

end Expr
end ExprLang
