import ExprLang.Proofs.Grouping.Turning
import ExprLang.Proofs.Value.Order

/-!
# Expressions without positions

`bare` takes away all positions of an expression: those of its nodes and those inside of its literals.
It leaves the sort of every node, its operator, its name and its keys, and goes on to the children
(`children_bare`, `binaryOp?_bare`).  So it passes through whatever is done to the children of a node
(`bare_mapChildren`).

Regrouping looks at operators only.  Whether an operand fits is not changed (`fitsLeft_bare_iff`,
`fitsRight_bare_iff`), so the same turns are made on both sides, and a turn hands on the positions of
the nodes that it takes apart (`bare_settle`, `bare_regroup`).
-/

namespace ExprLang
namespace Expr

mutual

/-- The expression without its positions, at any depth, those inside of literals included. -/
def bare : Expr → Expr
  | literal v _ => literal v.bare .unknown
  | reference name _ => reference name .unknown
  | array elements _ => array (bareElements elements) .unknown
  | map entries _ => map (bareEntries entries) .unknown
  | unary op operand _ => unary op (bare operand) .unknown
  | subscript indexable index _ => subscript (bare indexable) (bare index) .unknown
  | binary left op right _ => binary (bare left) op (bare right) .unknown

/-- Several expressions, each without its positions. -/
def bareElements : List Expr → List Expr
  | [] => []
  | e :: rest => bare e :: bareElements rest

/-- The entries of a map display, each without its positions. -/
def bareEntries : List (String × Expr) → List (String × Expr)
  | [] => []
  | (key, e) :: rest => (key, bare e) :: bareEntries rest

end

theorem bareElements_eq_map (elements : List Expr) : bareElements elements = elements.map bare := by
  induction elements with
  | nil => rfl
  | cons e rest ih => rw [bareElements, ih, List.map_cons]

theorem bareEntries_eq_map (entries : List (String × Expr)) :
    bareEntries entries = entries.map fun e => (e.1, bare e.2) := by
  induction entries with
  | nil => rfl
  | cons e rest ih => rw [bareEntries, ih, List.map_cons]

@[simp] theorem binaryOp?_bare (e : Expr) : e.bare.binaryOp? = e.binaryOp? := by
  cases e <;> rfl

@[simp] theorem isLiteral_bare (e : Expr) : e.bare.isLiteral = e.isLiteral := by
  cases e <;> rfl

@[simp] theorem position_bare (e : Expr) : e.bare.position = .unknown := by
  cases e <;> rfl

theorem children_bare (e : Expr) : e.bare.children = e.children.map bare := by
  cases e with
  | array elements p => rw [bare, children, children, bareElements_eq_map]
  | map entries p =>
    rw [bare, children, children, bareEntries_eq_map, List.map_map, List.map_map]
    rfl
  | _ => rfl

/-- **Taking positions away passes through what is done to the children.** -/
theorem bare_mapChildren {f g : Expr → Expr} {e : Expr}
    (h : ∀ c ∈ e.children, (f c).bare = g c.bare) :
    (e.mapChildren f).bare = e.bare.mapChildren g := by
  cases e with
  | literal v p => rfl
  | reference name p => rfl
  | array elements p =>
    have helements : elements.map (bare ∘ f) = elements.map (g ∘ bare) := List.map_congr_left h
    rw [mapChildren, bare, bare, mapChildren, bareElements_eq_map, bareElements_eq_map, List.map_map,
      List.map_map, helements]
  | map entries p =>
    have hentries : ∀ e ∈ entries, (e.1, (f e.2).bare) = (e.1, g e.2.bare) := by
      intro e he
      rw [h e.2 (List.mem_map_of_mem he)]
    rw [mapChildren, bare, bare, mapChildren, bareEntries_eq_map, bareEntries_eq_map, List.map_map,
      List.map_map]
    exact congrArg (map · .unknown) (List.map_congr_left hentries)
  | unary op operand p =>
    rw [mapChildren, bare, bare, mapChildren, h operand (by simp [children])]
  | subscript indexable index p =>
    rw [mapChildren, bare, bare, mapChildren, h indexable (by simp [children]),
      h index (by simp [children])]
  | binary left op right p =>
    rw [mapChildren, bare, bare, mapChildren, h left (by simp [children]),
      h right (by simp [children])]

/-! ## Regrouping -/

theorem fitsLeft_bare_iff {op : BinaryOp} {e : Expr} : FitsLeft op e.bare ↔ FitsLeft op e := by
  rw [FitsLeft, FitsLeft, binaryOp?_bare]

theorem fitsRight_bare_iff {op : BinaryOp} {e : Expr} : FitsRight op e.bare ↔ FitsRight op e := by
  rw [FitsRight, FitsRight, binaryOp?_bare]

/-- **Settling makes the same turns without positions.** -/
theorem bare_settle (left : Expr) (op : BinaryOp) (right : Expr) (p : Position) :
    (settle left op right p).bare = settle left.bare op right.bare .unknown := by
  induction left, op, right, p using settle_induction with
  | turn_right a lower b q op right p hlower ih ih' =>
    rw [ih', ih, bare, settle_turn_right hlower]
  | turn_left left op a lower b q p hleft hright ih ih' =>
    have hright' : ¬ FitsRight op (binary a.bare lower b.bare .unknown) := by
      rw [← fitsRight_bare_iff, bare] at hright
      exact hright
    rw [ih', ih, bare, settle_turn_left (fitsLeft_bare_iff.2 hleft) hright']
  | fits left op right p hleft hright =>
    rw [bare, settle_of_fits (fitsLeft_bare_iff.2 hleft) (fitsRight_bare_iff.2 hright)]

/-- **Regrouping does not look at positions.** -/
theorem bare_regroup (e : Expr) : e.regroup.bare = e.bare.regroup := by
  induction e using regroup_induction with
  | barrier e h ih =>
    rw [regroup_of_not_binary (by rw [binaryOp?_bare, h]), bare_mapChildren ih]
  | operation left op right p ih ih' => rw [bare_settle, bare, regroup_binary, ih, ih']

end Expr
end ExprLang
