/-!
# Source positions

A position is a line and a column.  Values and expression nodes carry one, so that an error can say
where it was raised; nothing that is computed ever depends on it.

Line 0, column 0 stands for *no position*: it is what a value has that was built by a program rather
than read from a text.  Only that one pair is unknown.  A line 0 with a column is a known position,
and so is a column 0 on a line.
-/

namespace ExprLang

/-- A place in a source text. -/
structure Position where
  line : Nat
  column : Nat
  deriving DecidableEq, Repr, Inhabited

namespace Position

/-- The position of everything that no text was read for. -/
def unknown : Position := ⟨0, 0⟩

/-- Whether the position points into a text. -/
def known (p : Position) : Bool := p != unknown

/-- Positions are ordered as one reads: by line, then by column. -/
def order (p q : Position) : Ordering :=
  (compare p.line q.line).then (compare p.column q.column)

/-- The text of a position in messages, `line:column`. -/
def text (p : Position) : String := s!"{p.line}:{p.column}"

end Position
end ExprLang
