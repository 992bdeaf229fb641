import ExprLang.Decimal.Notation
import ExprLang.Text.Quoted
import ExprLang.Value.Basic

/-!
# How values are shown

Every value has a text for a reader: scalars as they are written, strings between quotes, arrays and ranges
between brackets, maps between braces with a colon after each key.  Messages identify a value by this text.

## One writer, two layouts

The elements of a composite stand behind a *gap*, and so does the closing bracket.  On one line every gap is
a blank.  In a block a gap is a new line and an indent, one tab deeper for the elements than for the bracket
that closes them.  `Layout` holds what a gap is, `bracketed` places the gaps, and nothing else in the writer
knows which layout is in force; so the two texts of a value differ in their gaps only.  An empty composite
has no gap at all.
-/

namespace ExprLang

/-- How the elements of composites are set apart. -/
inductive Layout where
  /-- By blanks. -/
  | line
  /-- Each on a line of its own, under the given indent. -/
  | block (indent : List Char)

namespace Layout

/-- The layout of the elements of a composite. -/
def inner : Layout → Layout
  | line => line
  | block indent => block (indent ++ ['\t'])

/-- What stands before an element, or before a closing bracket. -/
def gap : Layout → List Char
  | line => [' ']
  | block indent => '\n' :: indent

/-- Elements between brackets: commas between them, an inner gap before each, and a gap at the end. -/
def bracketed (layout : Layout) (opening closing : Char) : List (List Char) → List Char
  | [] => [opening, closing]
  | first :: rest =>
    opening :: (layout.inner.gap ++ first
      ++ rest.flatMap (fun item => ',' :: (layout.inner.gap ++ item))
      ++ layout.gap ++ [closing])

end Layout

/-- The characters of an integer. -/
def integerChars (n : Int) : List Char :=
  Number.signChars (n < 0) ++ Decimal.digitsOf n.natAbs

namespace Value

mutual

/-- The characters of a value. -/
def chars : Value → Layout → List Char
  | ⟨.boolean b, _⟩, _ => if b then ['t', 'r', 'u', 'e'] else ['f', 'a', 'l', 's', 'e']
  | ⟨.string s, _⟩, _ => Quoted.quote s
  | ⟨.number x, _⟩, _ => x.plainChars
  | ⟨.array items, _⟩, layout => layout.bracketed '[' ']' (itemChars items layout.inner)
  | ⟨.map entries, _⟩, layout => layout.bracketed '{' '}' (entryChars entries layout.inner)
  | ⟨.range integers, _⟩, layout => layout.bracketed '[' ']' (integers.map integerChars)
  | ⟨.null, _⟩, _ => ['n', 'u', 'l', 'l']
  | ⟨.undefined, _⟩, _ => ['u', 'n', 'd', 'e', 'f', 'i', 'n', 'e', 'd']

/-- The characters of the elements of an array, one list for each. -/
def itemChars : List Value → Layout → List (List Char)
  | [], _ => []
  | v :: rest, layout => v.chars layout :: itemChars rest layout

/-- The characters of the entries of a map, one list for each. -/
def entryChars : List (String × Value) → Layout → List (List Char)
  | [], _ => []
  | (key, v) :: rest, layout =>
    (Quoted.quote key ++ ':' :: ' ' :: v.chars layout) :: entryChars rest layout

end

/-- The text of a value on one line; messages show values by it. -/
def text (v : Value) : String := String.ofList (v.chars .line)

/-- The text of a value on several lines, all but the first under an indent. -/
def blockText (v : Value) (indent : String) : String :=
  String.ofList (v.chars (.block indent.toList))

end Value
end ExprLang
