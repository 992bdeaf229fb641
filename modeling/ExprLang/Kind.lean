/-!
# Kinds of values

A value is of one of eight kinds.  Their order here is the order of values of different kinds, and their
names are those that messages use and by which a conversion is asked for.
-/

namespace ExprLang

/-- The kind of a value. -/
inductive Kind where
  | boolean
  | string
  | number
  | array
  | map
  | range
  /-- The explicit absence of a value. -/
  | null
  /-- No value was produced, as by a variable that is not bound. -/
  | undefined
  deriving DecidableEq, Repr, Inhabited

namespace Kind

/-- All kinds, in order. -/
def all : List Kind := [boolean, string, number, array, map, range, null, undefined]

/-- The place of a kind in the order. -/
def rank : Kind → Nat
  | boolean => 0
  | string => 1
  | number => 2
  | array => 3
  | map => 4
  | range => 5
  | null => 6
  | undefined => 7

theorem rank_injective {j k : Kind} (h : j.rank = k.rank) : j = k := by
  cases j <;> cases k <;> simp_all [rank]

/-- The name of a kind. -/
def name : Kind → String
  | boolean => "Boolean"
  | string => "String"
  | number => "Number"
  | array => "Array"
  | map => "Map"
  | range => "Range"
  | null => "Null"
  | undefined => "Undefined"

/-- The kind with a given name.  The name must be written as it is, capital included. -/
def ofName? (s : String) : Option Kind := all.find? fun k => k.name == s

end Kind
end ExprLang
