/-!
# Operators

The symbols of the language and what the grouping of an expression needs to know about them: how tightly
a binary operator binds, and whether it may be regrouped.

| level | operators |
|---|---|
| 1 | `..` |
| 2 | `\|\|` |
| 3 | `&&` |
| 4 | `==` `!=` |
| 5 | `<` `<=` `>=` `>` |
| 6 | `+` `-` |
| 7 | `*` `/` `%` |

Only `+`, `*`, `&&` and `||` count as associative; `+` does not count as commutative, since it also joins
strings and arrays.
-/

namespace ExprLang

/-- An operator with one operand.  Parentheses count as one, so that a group is a node of its own. -/
inductive UnaryOp where
  | plus
  | minus
  | not
  | group
  deriving DecidableEq, Repr, Inhabited

namespace UnaryOp

/-- All of them. -/
def all : List UnaryOp := [plus, minus, not, group]

/-- The symbol of the operator. -/
def symbol : UnaryOp → String
  | plus => "+"
  | minus => "-"
  | not => "!"
  | group => "()"

/-- The operator with a given symbol. -/
def ofSymbol? (s : String) : Option UnaryOp := all.find? fun op => op.symbol == s

end UnaryOp

/-- An operator with two operands. -/
inductive BinaryOp where
  | add
  | sub
  | mul
  | div
  | mod
  | and
  | or
  | less
  | lessEq
  | eq
  | notEq
  | greaterEq
  | greater
  | range
  deriving DecidableEq, Repr, Inhabited

namespace BinaryOp

/-- All of them. -/
def all : List BinaryOp :=
  [add, sub, mul, div, mod, and, or, less, lessEq, eq, notEq, greaterEq, greater, range]

theorem mem_all (op : BinaryOp) : op ∈ all := by
  cases op <;> decide

/-- The symbol of the operator. -/
def symbol : BinaryOp → String
  | add => "+"
  | sub => "-"
  | mul => "*"
  | div => "/"
  | mod => "%"
  | and => "&&"
  | or => "||"
  | less => "<"
  | lessEq => "<="
  | eq => "=="
  | notEq => "!="
  | greaterEq => ">="
  | greater => ">"
  | range => ".."

/-- The operator with a given symbol. -/
def ofSymbol? (s : String) : Option BinaryOp := all.find? fun op => op.symbol == s

/-- How tightly the operator binds; operators of a higher level are applied first. -/
def precedence : BinaryOp → Nat
  | range => 1
  | or => 2
  | and => 3
  | eq | notEq => 4
  | less | lessEq | greaterEq | greater => 5
  | add | sub => 6
  | mul | div | mod => 7

/-- Whether `(a op b) op c` may be written for `a op (b op c)`. -/
def associative : BinaryOp → Bool
  | or | and | add | mul => true
  | _ => false

/-- Whether `b op a` may be written for `a op b`. -/
def commutative : BinaryOp → Bool
  | or | and | eq | notEq | mul => true
  | _ => false

end BinaryOp
end ExprLang
