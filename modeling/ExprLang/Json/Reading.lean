import ExprLang.Json.Numeral

/-!
# Reading JSON

Reading goes in two steps, because a text can be well formed and yet denote nothing: a numeral can be too large,
and a string can name half of a surrogate pair.  Where such a thing stands in a field that nobody asks for, it is
to be skipped.  So the grammar gives a `Written` tree, in which numerals and strings are still what was written,
and `Written.denoted?` is the tree of data, if there is one.

The grammar is that of JSON and nothing more: four blanks, no comments, no commas at the end, no leading zeros,
and no control characters inside strings.  Readers take the characters that are left and give back those behind
what they read.

The three readers of nested values count down a number that the length of the text bounds: between two values
there is at least one character, and an array or object takes one more step for its elements.
-/

namespace ExprLang
namespace Json

/-- A part of a string as it is written: a character, or the code of a 16-bit unit. -/
inductive Piece where
  | char (c : Char)
  | unit (code : Nat)
  deriving DecidableEq, Repr

/-- A JSON text whose numerals and strings are not interpreted yet. -/
inductive Written where
  | null
  | boolean (b : Bool)
  | numeral (n : Numeral)
  | string (pieces : List Piece)
  | array (items : List Written)
  | object (fields : List (List Piece × Written))

/-! ## Strings -/

def hexDigit? (c : Char) : Option Nat :=
  if c.isDigit then some (c.toNat - '0'.toNat)
  else if 'a' ≤ c ∧ c ≤ 'f' then some (c.toNat - 'a'.toNat + 10)
  else if 'A' ≤ c ∧ c ≤ 'F' then some (c.toNat - 'A'.toNat + 10)
  else none

/-- The unit with four hexadecimal digits. -/
def hexUnit? (a b c d : Char) : Option Nat := do
  let a ← hexDigit? a
  let b ← hexDigit? b
  let c ← hexDigit? c
  let d ← hexDigit? d
  return ((a * 16 + b) * 16 + c) * 16 + d

/-- The character that a letter stands for behind a backslash. -/
def escaped? : Char → Option Char
  | '"' => some '"'
  | '\\' => some '\\'
  | '/' => some '/'
  | 'b' => some '\x08'
  | 'f' => some '\x0c'
  | 'n' => some '\n'
  | 'r' => some '\r'
  | 't' => some '\t'
  | _ => none

/-- Reads a string behind its opening quote. -/
def readPieces : List Char → Option (List Piece × List Char)
  | [] => none
  | '"' :: rest => some ([], rest)
  | '\\' :: 'u' :: a :: b :: c :: d :: rest => do
    let code ← hexUnit? a b c d
    let (pieces, rest) ← readPieces rest
    return (.unit code :: pieces, rest)
  | '\\' :: letter :: rest => do
    let c ← escaped? letter
    let (pieces, rest) ← readPieces rest
    return (.char c :: pieces, rest)
  | c :: rest =>
    if c.toNat < 32 then none
    else do
      let (pieces, rest) ← readPieces rest
      return (.char c :: pieces, rest)

def isHighSurrogate (code : Nat) : Bool := 0xD800 ≤ code && code < 0xDC00

def isLowSurrogate (code : Nat) : Bool := 0xDC00 ≤ code && code < 0xE000

/-- The characters that the pieces of a string denote: units outside the surrogates stand for themselves, and
a high surrogate must be followed by a low one. -/
def denotedChars? : List Piece → Option (List Char)
  | [] => some []
  | .char c :: rest => (denotedChars? rest).map (c :: ·)
  | .unit high :: .unit low :: rest =>
    if isHighSurrogate high then
      if isLowSurrogate low then
        (denotedChars? rest).map
          (Char.ofNat (0x10000 + (high - 0xD800) * 0x400 + (low - 0xDC00)) :: ·)
      else none
    else if isLowSurrogate high then none
    else (denotedChars? (.unit low :: rest)).map (Char.ofNat high :: ·)
  | .unit code :: rest =>
    if isHighSurrogate code || isLowSurrogate code then none
    else (denotedChars? rest).map (Char.ofNat code :: ·)

/-- The string that pieces denote. -/
def denotedString? (pieces : List Piece) : Option String := (denotedChars? pieces).map String.ofList

/-! ## Numerals -/

/-- Reads digits, at least one. -/
def readDigits (cs : List Char) : Option (List Char × List Char) :=
  let (digits, rest) := spanDigits cs
  if digits.isEmpty then none else some (digits, rest)

/-- Reads the digits before the point: a single zero, or digits that do not begin with one. -/
def readWhole : List Char → Option (List Char × List Char)
  | '0' :: rest => if (rest.takeWhile Char.isDigit).isEmpty then some (['0'], rest) else none
  | cs => readDigits cs

/-- Reads a point and the digits behind it, if there is a point. -/
def readFraction : List Char → Option (List Char × List Char)
  | '.' :: rest => readDigits rest
  | cs => some ([], cs)

/-- Reads an exponent, if there is one. -/
def readExponent : List Char → Option (Option (Bool × List Char) × List Char)
  | [] => some (none, [])
  | c :: rest =>
    if c = 'e' ∨ c = 'E' then do
      let (negative, rest) := spanSign rest
      let (digits, rest) ← readDigits rest
      return (some (negative, digits), rest)
    else some (none, c :: rest)

/-- Reads a numeral behind its sign. -/
def readUnsigned (negative : Bool) (cs : List Char) : Option (Numeral × List Char) := do
  let (whole, rest) ← readWhole cs
  let (fraction, rest) ← readFraction rest
  let (exponent, rest) ← readExponent rest
  return ({ negative, whole, fraction, exponent }, rest)

/-- Reads a numeral.  A minus sign is allowed, a plus sign is not. -/
def readNumeral : List Char → Option (Numeral × List Char)
  | '-' :: rest => readUnsigned true rest
  | cs => readUnsigned false cs

/-! ## Values -/

def isBlank (c : Char) : Bool := c = ' ' || c = '\n' || c = '\r' || c = '\t'

def skipBlanks (cs : List Char) : List Char := cs.dropWhile isBlank

mutual

/-- Reads a value, behind any blanks. -/
def readValue : Nat → List Char → Option (Written × List Char)
  | 0, _ => none
  | steps + 1, cs =>
    match skipBlanks cs with
    | 'n' :: 'u' :: 'l' :: 'l' :: rest => some (.null, rest)
    | 't' :: 'r' :: 'u' :: 'e' :: rest => some (.boolean true, rest)
    | 'f' :: 'a' :: 'l' :: 's' :: 'e' :: rest => some (.boolean false, rest)
    | '"' :: rest => (readPieces rest).map fun (pieces, rest) => (.string pieces, rest)
    | '[' :: rest =>
      match skipBlanks rest with
      | ']' :: rest => some (.array [], rest)
      | rest => (readItems steps rest).map fun (items, rest) => (.array items, rest)
    | '\x7b' :: rest =>
      match skipBlanks rest with
      | '\x7d' :: rest => some (.object [], rest)
      | rest => (readFields steps rest).map fun (fields, rest) => (.object fields, rest)
    | rest => (readNumeral rest).map fun (n, rest) => (.numeral n, rest)

/-- Reads the values of an array, at least one, and the bracket behind them. -/
def readItems : Nat → List Char → Option (List Written × List Char)
  | 0, _ => none
  | steps + 1, cs => do
    let (item, rest) ← readValue steps cs
    match skipBlanks rest with
    | ']' :: rest => return ([item], rest)
    | ',' :: rest =>
      let (items, rest) ← readItems steps rest
      return (item :: items, rest)
    | _ => none

/-- Reads the fields of an object, at least one, and the brace behind them. -/
def readFields : Nat → List Char → Option (List (List Piece × Written) × List Char)
  | 0, _ => none
  | steps + 1, cs => do
    let '"' :: rest := skipBlanks cs | none
    let (key, rest) ← readPieces rest
    let ':' :: rest := skipBlanks rest | none
    let (value, rest) ← readValue steps rest
    match skipBlanks rest with
    | '\x7d' :: rest => return ([(key, value)], rest)
    | ',' :: rest =>
      let (fields, rest) ← readFields steps rest
      return ((key, value) :: fields, rest)
    | _ => none

end

namespace Written

/-- The tree that a whole text is written as. -/
def ofText? (s : String) : Option Written := do
  let cs := s.toList
  let (written, rest) ← readValue (2 * cs.length + 2) cs
  if (skipBlanks rest).isEmpty then some written else none

mutual

/-- The data that a tree denotes, if every numeral and string in it denotes something. -/
def denoted? : Written → Option Json
  | null => some .null
  | boolean b => some (.boolean b)
  | numeral n => n.denoted?
  | string pieces => (denotedString? pieces).map .string
  | array items => (denotedItems? items).map .array
  | object fields => (denotedFields? fields).map .object

/-- The data that several trees denote. -/
def denotedItems? : List Written → Option (List Json)
  | [] => some []
  | w :: rest => do
    let j ← denoted? w
    let js ← denotedItems? rest
    return j :: js

/-- The fields that several written fields denote. -/
def denotedFields? : List (List Piece × Written) → Option (List (String × Json))
  | [] => some []
  | (pieces, w) :: rest => do
    let key ← denotedString? pieces
    let j ← denoted? w
    let fields ← denotedFields? rest
    return (key, j) :: fields

end

/-! ## Records

Positions and settings are records: objects with fixed keys, or arrays with the fields in order.  In an object,
fields that the record does not have are skipped, whatever they hold. -/

/-- The natural number below `bound` that is written. -/
def natural? (bound : Nat) : Written → Option Nat
  | numeral n => n.natural? bound
  | _ => none

/-- The fields of an object under the keys that they denote; none if some key denotes nothing. -/
def keyed? (fields : List (List Piece × Written)) : Option (List (String × Written)) :=
  fields.mapM fun field => (denotedString? field.1).map fun key => (key, field.2)

/-- What is written under a key.  A key must not be repeated. -/
def field? (key : String) (fields : List (String × Written)) : Option (Option Written) :=
  match fields.filter fun field => field.1 == key with
  | [] => some none
  | [field] => some (some field.2)
  | _ => none

end Written

/-- The data that a whole text denotes. -/
def ofText? (s : String) : Option Json := (Written.ofText? s).bind Written.denoted?

end Json
end ExprLang
