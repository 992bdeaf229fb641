import ExprLang.Decimal.Notation
import ExprLang.Json.Basic
import ExprLang.Value.Rendering

/-!
# Writing JSON

The compact text of a tree: no blank anywhere, fields in their order.  Numbers are in data notation; what JSON
cannot write, NaN and the infinities, is `null`.  In strings the quote, the backslash and the characters below
the blank are escaped, five of them by a letter and the others by their code; everything else stands for itself.
-/

namespace ExprLang
namespace Json

/-- What stands for a character in a string. -/
def escapeChar (c : Char) : List Char :=
  if c = '"' then ['\\', '"']
  else if c = '\\' then ['\\', '\\']
  else if c.toNat < 32 then
    if c.toNat = 8 then ['\\', 'b']
    else if c.toNat = 9 then ['\\', 't']
    else if c.toNat = 10 then ['\\', 'n']
    else if c.toNat = 12 then ['\\', 'f']
    else if c.toNat = 13 then ['\\', 'r']
    else ['\\', 'u', '0', '0', Nat.digitChar (c.toNat / 16), Nat.digitChar (c.toNat % 16)]
  else [c]

/-- A string between quotes. -/
def quoteChars (s : String) : List Char := '"' :: (s.toList.flatMap escapeChar ++ ['"'])

/-- Texts between brackets, with commas between them. -/
def enclosed (opening closing : Char) (items : List (List Char)) : List Char :=
  opening :: ([','].intercalate items ++ [closing])

mutual

/-- The characters of a tree. -/
def chars : Json → List Char
  | null => ['n', 'u', 'l', 'l']
  | boolean b => if b then ['t', 'r', 'u', 'e'] else ['f', 'a', 'l', 's', 'e']
  | integer n => integerChars n
  | number x => x.dataChars?.getD ['n', 'u', 'l', 'l']
  | string s => quoteChars s
  | array items => enclosed '[' ']' (itemChars items)
  | object fields => enclosed '\x7b' '\x7d' (fieldChars fields)

/-- The characters of several trees. -/
def itemChars : List Json → List (List Char)
  | [] => []
  | j :: rest => chars j :: itemChars rest

/-- The characters of several fields. -/
def fieldChars : List (String × Json) → List (List Char)
  | [] => []
  | (key, j) :: rest => (quoteChars key ++ ':' :: chars j) :: fieldChars rest

end

/-- The text of a tree. -/
def text (j : Json) : String := String.ofList j.chars

end Json
end ExprLang
