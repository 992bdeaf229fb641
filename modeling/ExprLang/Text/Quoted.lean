/-!
# Quoted text

Strings and keys stand between quotes when a value is shown.  Inside, four characters are written with
a backslash: the quote and the backslash themselves, and the newline and the tab, which would break the
layout of a line.  Everything else stands for itself, control characters included.
-/

namespace ExprLang
namespace Quoted

/-- What stands for a character between quotes. -/
def escapeChar : Char → List Char
  | '"' => ['\\', '"']
  | '\\' => ['\\', '\\']
  | '\n' => ['\\', 'n']
  | '\t' => ['\\', 't']
  | c => [c]

/-- What stands for a text between quotes. -/
def escape (cs : List Char) : List Char := cs.flatMap escapeChar

@[simp] theorem escape_cons (c : Char) (cs : List Char) :
    escape (c :: cs) = escapeChar c ++ escape cs := rfl

/-- A text between quotes. -/
def quote (s : String) : List Char := '"' :: (escape s.toList ++ ['"'])

end Quoted
end ExprLang
