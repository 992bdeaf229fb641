import ExprLang.Environment
import ExprLang.Text.Shapeless

/-!
# Listings for logs

A context lists the names of its variables for a log.  A listing must be one line that shows every name for what it
is, so names stand between quotes, and besides the quote and the backslash everything is escaped that has no shape
of its own: four characters by a letter or a digit, the others by their code in braces.
-/

namespace ExprLang
namespace Listed

/-- What stands for a character in a listing. -/
def escapeChar (c : Char) : List Char :=
  if c = '"' then ['\\', '"']
  else if c = '\\' then ['\\', '\\']
  else if c = '\n' then ['\\', 'n']
  else if c = '\r' then ['\\', 'r']
  else if c = '\t' then ['\\', 't']
  else if c.toNat = 0 then ['\\', '0']
  else if Shapeless.contains c then
    ['\\', 'u', '\x7b'] ++ Nat.toDigits 16 c.toNat ++ ['\x7d']
  else [c]

/-- A name between quotes. -/
def quote (name : String) : String :=
  String.ofList ('"' :: (name.toList.flatMap escapeChar ++ ['"']))

end Listed

/-- The names of the variables of a context, on one line. -/
def Context.listing (c : Context) : String :=
  "EvaluationContext \x7b names: \x7b" ++ ", ".intercalate (c.table.names.map Listed.quote)
    ++ "\x7d \x7d"

end ExprLang
