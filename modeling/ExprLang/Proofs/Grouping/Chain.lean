import ExprLang.Proofs.Grouping.Turning
import Mathlib.Data.List.Induction

/-!
# Chains of operators

`x₀ o₁ x₁ o₂ x₂ …`, with operands that are no binary nodes, is what stands in a text between two
brackets.  A reader that knows nothing of precedence makes `leftToRight` of it.  What is meant is
`byPrecedence`: the last of the loosest operators is applied last of all, and both sides of it are
read in the same way.  So tighter operators come first, and operators of one level are applied
from left to right.

The main statement is that regrouping the former gives the latter (`regroup_leftToRight`), for any
chain.

## How the two meet

One of them grows a tree by a link at a time and the other splits the chain in the middle.  The
step between them is `settle_byPrecedence`: what settling makes of a chain that is read already
and of one more link is the longer chain, read.  Only the last loosest operator decides.  Either
it is looser than the new one; then the link goes down the right side, and the chain after the
operator grows by it.  Or the new one is the last loosest of all, and nothing is turned.

That an operand fits where it stands is seen from the chain it was read from, since the operator
at its top is one of that chain (`exists_mem_of_binaryOp?_byPrecedence`).
-/

namespace ExprLang
namespace Expr

/-- An operand of a chain: an expression that is no binary node. -/
abbrev Operand := { e : Expr // e.binaryOp? = none }

/-- An operator of a chain, its position, and the operand to its right. -/
structure Link where
  op : BinaryOp
  position : Position
  operand : Operand

/-- The operation that a link makes of what stands to its left. -/
def Link.attach (left : Expr) (link : Link) : Expr :=
  binary left link.op link.operand link.position

/-- The chain as it is built strictly from left to right. -/
def leftToRight (first : Operand) (links : List Link) : Expr :=
  links.foldl Link.attach first

theorem leftToRight_append_singleton (first : Operand) (links : List Link) (link : Link) :
    leftToRight first (links ++ [link]) =
      binary (leftToRight first links) link.op link.operand link.position := by
  rw [leftToRight, List.foldl_append]
  rfl

/-! ## The last loosest operator -/

/-- A link of a chain, with the links before and after it. -/
structure Split where
  before : List Link
  link : Link
  after : List Link

/-- The split at the last of the loosest operators, if there is any operator. -/
def splitLoosest? : List Link → Option Split
  | [] => none
  | link :: rest =>
    match splitLoosest? rest with
    | none => some ⟨[], link, rest⟩
    | some s =>
      if link.op.precedence < s.link.op.precedence then some ⟨[], link, rest⟩
      else some ⟨link :: s.before, s.link, s.after⟩

/-- No operator of the chain is looser than that of the split, and those after it are tighter. -/
structure IsLoosest (links : List Link) (s : Split) : Prop where
  eq_append : links = s.before ++ s.link :: s.after
  le_before : ∀ link ∈ s.before, s.link.op.precedence ≤ link.op.precedence
  lt_after : ∀ link ∈ s.after, s.link.op.precedence < link.op.precedence

/-- A link that is looser than all the others splits a chain at its head. -/
theorem isLoosest_cons {link : Link} {rest : List Link}
    (h : ∀ k ∈ rest, link.op.precedence < k.op.precedence) :
    IsLoosest (link :: rest) ⟨[], link, rest⟩ :=
  ⟨rfl, fun _ hk => absurd hk List.not_mem_nil, h⟩

/-- A link that is no tighter than the others splits a chain at its end. -/
theorem isLoosest_append_singleton {links : List Link} {link : Link}
    (h : ∀ k ∈ links, link.op.precedence ≤ k.op.precedence) :
    IsLoosest (links ++ [link]) ⟨links, link, []⟩ :=
  ⟨rfl, h, fun _ hk => absurd hk List.not_mem_nil⟩

namespace IsLoosest
variable {links : List Link} {s : Split}

theorem mem (h : IsLoosest links s) : s.link ∈ links := by
  rw [h.eq_append]
  exact List.mem_append_right _ List.mem_cons_self

theorem le (h : IsLoosest links s) {k : Link} (hk : k ∈ links) :
    s.link.op.precedence ≤ k.op.precedence := by
  rw [h.eq_append, List.mem_append, List.mem_cons] at hk
  rcases hk with hk | rfl | hk
  · exact h.le_before k hk
  · exact Nat.le_refl _
  · exact Nat.le_of_lt (h.lt_after k hk)

theorem length_before_lt (h : IsLoosest links s) : s.before.length < links.length := by
  rw [h.eq_append, List.length_append, List.length_cons]
  omega

theorem length_after_lt (h : IsLoosest links s) : s.after.length < links.length := by
  rw [h.eq_append, List.length_append, List.length_cons]
  omega

/-- A tighter link at the end leaves the split where it is. -/
theorem append_singleton (h : IsLoosest links s) {link : Link}
    (hlink : s.link.op.precedence < link.op.precedence) :
    IsLoosest (links ++ [link]) ⟨s.before, s.link, s.after ++ [link]⟩ := by
  refine ⟨?_, h.le_before, fun k hk => ?_⟩
  · rw [h.eq_append, List.append_assoc, List.cons_append]
  · rcases List.mem_append.1 hk with hk | hk
    · exact h.lt_after k hk
    · rw [List.mem_singleton.1 hk]
      exact hlink

end IsLoosest

theorem splitLoosest?_eq_none_iff {links : List Link} :
    splitLoosest? links = none ↔ links = [] := by
  cases links with
  | nil => exact ⟨fun _ => rfl, fun _ => rfl⟩
  | cons link rest =>
    refine ⟨fun h => ?_, fun h => absurd h (List.cons_ne_nil _ _)⟩
    rw [splitLoosest?] at h
    split at h
    · cases h
    · split at h <;> cases h

theorem isLoosest_of_splitLoosest? {links : List Link} {s : Split}
    (h : splitLoosest? links = some s) : IsLoosest links s := by
  induction links generalizing s with
  | nil => cases h
  | cons link rest ih =>
    rw [splitLoosest?] at h
    split at h
    · rename_i hnone
      cases h
      have hrest : rest = [] := splitLoosest?_eq_none_iff.1 hnone
      rw [hrest]
      exact isLoosest_cons fun _ hk => absurd hk List.not_mem_nil
    · rename_i t ht
      have hloosest : IsLoosest rest t := ih ht
      split at h
      · rename_i hlink
        cases h
        exact isLoosest_cons fun k hk => Nat.lt_of_lt_of_le hlink (hloosest.le hk)
      · rename_i hlink
        cases h
        refine ⟨?_, fun k hk => ?_, hloosest.lt_after⟩
        · rw [List.cons_append, ← hloosest.eq_append]
        · rcases List.mem_cons.1 hk with rfl | hk
          · exact Nat.not_lt.1 hlink
          · exact hloosest.le_before k hk

/-- **The split is the one at the last loosest operator**, and there is no other. -/
theorem splitLoosest?_eq_some_iff {links : List Link} {s : Split} :
    splitLoosest? links = some s ↔ IsLoosest links s := by
  refine ⟨isLoosest_of_splitLoosest?, fun h => ?_⟩
  induction links generalizing s with
  | nil => exact absurd h.mem List.not_mem_nil
  | cons link rest ih =>
    obtain ⟨before, loosest, after⟩ := s
    obtain ⟨happ, hle, hlt⟩ := h
    cases before with
    | nil =>
      obtain ⟨rfl, rfl⟩ := List.cons.inj happ
      rw [splitLoosest?]
      split
      · rfl
      · rename_i t ht
        have hlink : link.op.precedence < t.link.op.precedence :=
          hlt t.link (isLoosest_of_splitLoosest? ht).mem
        rw [if_pos hlink]
    | cons k before =>
      obtain ⟨rfl, hrest⟩ := List.cons.inj happ
      have hrec : splitLoosest? rest = some ⟨before, loosest, after⟩ :=
        ih ⟨hrest, fun j hj => hle j (List.mem_cons_of_mem _ hj), hlt⟩
      have hlink : ¬ link.op.precedence < loosest.op.precedence :=
        Nat.not_lt.2 (hle link List.mem_cons_self)
      rw [splitLoosest?, hrec]
      exact if_neg hlink

/-! ## Reading by precedence -/

/-- The chain read by precedence: the last loosest operator at the top, and each operand
regrouped. -/
def byPrecedence (first : Operand) (links : List Link) : Expr :=
  match _h : splitLoosest? links with
  | none => regroup first
  | some s =>
    binary (byPrecedence first s.before) s.link.op (byPrecedence s.link.operand s.after)
      s.link.position
termination_by links.length
decreasing_by
  · exact (isLoosest_of_splitLoosest? _h).length_before_lt
  · exact (isLoosest_of_splitLoosest? _h).length_after_lt

@[simp] theorem byPrecedence_nil (first : Operand) : byPrecedence first [] = regroup first := by
  rw [byPrecedence]
  rfl

theorem byPrecedence_of_isLoosest {first : Operand} {links : List Link} {s : Split}
    (h : IsLoosest links s) :
    byPrecedence first links = binary (byPrecedence first s.before) s.link.op
      (byPrecedence s.link.operand s.after) s.link.position := by
  have hs : splitLoosest? links = some s := splitLoosest?_eq_some_iff.2 h
  rw [byPrecedence]
  split
  · rename_i hnone
    rw [hs] at hnone
    cases hnone
  · rename_i t ht
    rw [hs] at ht
    cases ht
    rfl

/-- The operator at the top is one of the chain. -/
theorem exists_mem_of_binaryOp?_byPrecedence {first : Operand} {links : List Link} {op : BinaryOp}
    (h : (byPrecedence first links).binaryOp? = some op) : ∃ link ∈ links, link.op = op := by
  cases hs : splitLoosest? links with
  | none =>
    rw [splitLoosest?_eq_none_iff.1 hs, byPrecedence_nil,
      binaryOp?_regroup_of_not_binary first.property] at h
    cases h
  | some s =>
    have hsplit : IsLoosest links s := isLoosest_of_splitLoosest? hs
    rw [byPrecedence_of_isLoosest hsplit] at h
    exact ⟨s.link, hsplit.mem, Option.some.inj h⟩

theorem fitsLeft_byPrecedence {op : BinaryOp} {first : Operand} {links : List Link}
    (h : ∀ link ∈ links, op.precedence ≤ link.op.precedence) :
    FitsLeft op (byPrecedence first links) := by
  intro child hchild
  obtain ⟨link, hlink, rfl⟩ := exists_mem_of_binaryOp?_byPrecedence hchild
  exact h link hlink

theorem fitsRight_byPrecedence {op : BinaryOp} {first : Operand} {links : List Link}
    (h : ∀ link ∈ links, op.precedence < link.op.precedence) :
    FitsRight op (byPrecedence first links) := by
  intro child hchild
  obtain ⟨link, hlink, rfl⟩ := exists_mem_of_binaryOp?_byPrecedence hchild
  have hlt : op.precedence < link.op.precedence := h link hlink
  exact ⟨Nat.le_of_lt hlt, fun heq => absurd heq (Nat.ne_of_gt hlt)⟩

/-! ## One more link -/

/-- **Settling a chain that is read and one more link reads the longer chain.** -/
theorem settle_byPrecedence (first : Operand) (links : List Link) (link : Link) :
    settle (byPrecedence first links) link.op (regroup link.operand) link.position =
      byPrecedence first (links ++ [link]) := by
  have hoperand : FitsRight link.op (regroup link.operand) :=
    fitsRight_of_not_binary (binaryOp?_regroup_of_not_binary link.operand.property)
  -- along the right side of the tree: each step goes on with the chain after the last loosest link
  induction first, links using byPrecedence.induct with
  | case1 first links hs =>
    have hlinks : links = [] := splitLoosest?_eq_none_iff.1 hs
    subst hlinks
    have hfirst : FitsLeft link.op (byPrecedence first []) :=
      fitsLeft_byPrecedence fun _ hk => absurd hk List.not_mem_nil
    have hsplit : IsLoosest ([] ++ [link]) ⟨[], link, []⟩ :=
      isLoosest_append_singleton fun _ hk => absurd hk List.not_mem_nil
    rw [byPrecedence_of_isLoosest hsplit, settle_of_fits hfirst hoperand,
      byPrecedence_nil link.operand]
  | case2 first links s hs _ ih =>
    have hloosest : IsLoosest links s := isLoosest_of_splitLoosest? hs
    by_cases hop : s.link.op.precedence < link.op.precedence
    · -- the old operator stays at the top
      have hsplit := hloosest.append_singleton hop
      have hleft : FitsLeft s.link.op (byPrecedence first s.before) :=
        fitsLeft_byPrecedence hloosest.le_before
      have hright : FitsRight s.link.op (byPrecedence s.link.operand (s.after ++ [link])) :=
        fitsRight_byPrecedence hsplit.lt_after
      rw [byPrecedence_of_isLoosest hloosest, settle_turn_right hop, ih,
        settle_of_fits hleft hright, byPrecedence_of_isLoosest hsplit]
    · -- the new operator is the last loosest
      have hlinks : ∀ k ∈ links, link.op.precedence ≤ k.op.precedence :=
        fun k hk => Nat.le_trans (Nat.not_lt.1 hop) (hloosest.le hk)
      rw [byPrecedence_of_isLoosest (isLoosest_append_singleton hlinks), byPrecedence_nil,
        settle_of_fits (fitsLeft_byPrecedence hlinks) hoperand]

/-- **Regrouping reads chains by precedence**, whatever their operands, operators and positions. -/
theorem regroup_leftToRight (first : Operand) (links : List Link) :
    regroup (leftToRight first links) = byPrecedence first links := by
  induction links using List.reverseRecOn with
  | nil =>
    rw [byPrecedence_nil]
    rfl
  | append_singleton links link ih =>
    rw [leftToRight_append_singleton, regroup_binary, ih, settle_byPrecedence]

end Expr
end ExprLang
