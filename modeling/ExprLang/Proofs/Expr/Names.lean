import ExprLang.Proofs.Expr.Children

/-!
# Names

The variables that an expression refers to.  `occurrences` lists the references from left to right,
each with its name and with what scoping has to know about its place: whether it is inside the index
of a subscript, at any depth.  There the name of the last index may be bound by the subscript, and
nowhere else.

`names` forgets the places.  Both lists are taken apart by one equation each, `occurrences_eq` and
`names_eq`, and an expression without names is one that has no variables (`names_eq_nil_iff`).
-/

namespace ExprLang
namespace Expr

/-- A reference to a variable, and whether it is inside the index of a subscript. -/
structure Occurrence where
  name : String
  inIndex : Bool
  deriving DecidableEq, Repr

mutual

/-- The references of an expression that is itself inside an index or not, from left to right. -/
def occurrences : Expr → Bool → List Occurrence
  | literal _ _, _ => []
  | reference name _, inIndex => [⟨name, inIndex⟩]
  | array elements _, inIndex => elementOccurrences elements inIndex
  | map entries _, inIndex => entryOccurrences entries inIndex
  | unary _ operand _, inIndex => occurrences operand inIndex
  | subscript indexable index _, inIndex => occurrences indexable inIndex ++ occurrences index true
  | binary left _ right _, inIndex => occurrences left inIndex ++ occurrences right inIndex

/-- The references of several expressions. -/
def elementOccurrences : List Expr → Bool → List Occurrence
  | [], _ => []
  | e :: rest, inIndex => occurrences e inIndex ++ elementOccurrences rest inIndex

/-- The references of the expressions of several entries. -/
def entryOccurrences : List (String × Expr) → Bool → List Occurrence
  | [], _ => []
  | (_, e) :: rest, inIndex => occurrences e inIndex ++ entryOccurrences rest inIndex

end

/-- The names of the variables that an expression refers to, from left to right. -/
def names (e : Expr) : List String := (e.occurrences false).map Occurrence.name

/-- The name of the variable, if the node is a reference. -/
def name? : Expr → Option String
  | reference name _ => some name
  | _ => none

/-! ## Occurrences -/

theorem elementOccurrences_eq_flatMap (elements : List Expr) (inIndex : Bool) :
    elementOccurrences elements inIndex = elements.flatMap fun e => e.occurrences inIndex := by
  induction elements with
  | nil => rfl
  | cons e rest ih => rw [elementOccurrences, ih, List.flatMap_cons]

theorem entryOccurrences_eq_flatMap (entries : List (String × Expr)) (inIndex : Bool) :
    entryOccurrences entries inIndex =
      (entries.map Prod.snd).flatMap fun e => e.occurrences inIndex := by
  induction entries with
  | nil => rfl
  | cons e rest ih => rw [entryOccurrences, ih, List.map_cons, List.flatMap_cons]

/-- **Only the index of a subscript changes the place of what is below.** -/
theorem occurrences_eq (e : Expr) (inIndex : Bool) :
    e.occurrences inIndex = (e.name?.toList.map fun name => ⟨name, inIndex⟩) ++
      ((e.unindexedChildren.flatMap fun c => c.occurrences inIndex) ++
        e.index?.toList.flatMap fun c => c.occurrences true) := by
  cases e with
  | array elements p =>
    simp [occurrences, elementOccurrences_eq_flatMap, name?, unindexedChildren, children, index?]
  | map entries p =>
    simp [occurrences, entryOccurrences_eq_flatMap, name?, unindexedChildren, children, index?]
  | _ => simp [occurrences, name?, unindexedChildren, children, index?]

theorem mem_occurrences_of_mem_unindexedChildren {e c : Expr} (hc : c ∈ e.unindexedChildren)
    {inIndex : Bool} {o : Occurrence} (ho : o ∈ c.occurrences inIndex) :
    o ∈ e.occurrences inIndex := by
  have hbelow : o ∈ e.unindexedChildren.flatMap fun c => c.occurrences inIndex :=
    List.mem_flatMap.2 ⟨c, hc, ho⟩
  rw [occurrences_eq]
  exact List.mem_append_right _ (List.mem_append_left _ hbelow)

/-! ## Names -/

/-- One step of both facts about names: where the children lose their place, the node does. -/
theorem map_name_occurrences_of_children {e : Expr}
    (h : ∀ c ∈ e.children, ∀ inIndex, (c.occurrences inIndex).map Occurrence.name = c.names)
    (inIndex : Bool) : (e.occurrences inIndex).map Occurrence.name =
      e.name?.toList ++ e.children.flatMap names := by
  have hown : (e.name?.toList.map fun name => (⟨name, inIndex⟩ : Occurrence)).map
      Occurrence.name = e.name?.toList := by
    rw [List.map_map]
    exact List.map_id _
  have hbelow : ∀ (cs : List Expr) (place : Bool), (∀ c ∈ cs, c ∈ e.children) →
      (cs.flatMap fun c => c.occurrences place).map Occurrence.name = cs.flatMap names := by
    intro cs place hcs
    have hnames : cs.map (fun c => (c.occurrences place).map Occurrence.name) = cs.map names :=
      List.map_congr_left fun c hc => h c (hcs c hc) place
    rw [List.map_flatMap, List.flatMap_def, List.flatMap_def, hnames]
  have hunindexed := hbelow e.unindexedChildren inIndex fun c hc =>
    mem_children_of_mem_unindexedChildren hc
  have hindex := hbelow e.index?.toList true fun c hc => by
    rw [children_eq_append]
    exact List.mem_append_right _ hc
  rw [occurrences_eq, List.map_append, List.map_append, hown, hunindexed, hindex,
    children_eq_append, List.flatMap_append]

/-- The names do not depend on the place of the expression. -/
theorem map_name_occurrences (e : Expr) (inIndex : Bool) :
    (e.occurrences inIndex).map Occurrence.name = e.names := by
  induction e using induction_on_children generalizing inIndex with
  | node e ih =>
    have hplace := map_name_occurrences_of_children ih inIndex
    exact hplace.trans (map_name_occurrences_of_children ih false).symm

/-- **The names are that of the node itself, if it is a reference, and those of the children.** -/
theorem names_eq (e : Expr) : e.names = e.name?.toList ++ e.children.flatMap names :=
  map_name_occurrences_of_children (fun c _ => c.map_name_occurrences) false

theorem mem_names_of_mem_children {e c : Expr} (hc : c ∈ e.children) {name : String}
    (hname : name ∈ c.names) : name ∈ e.names := by
  rw [names_eq]
  exact List.mem_append_right _ (List.mem_flatMap.2 ⟨c, hc, hname⟩)

/-! ## No variables -/

theorem anyHasVariables_eq_any (elements : List Expr) :
    anyHasVariables elements = elements.any hasVariables := by
  induction elements with
  | nil => rfl
  | cons e rest ih => rw [anyHasVariables, ih, List.any_cons]

theorem anyEntryHasVariables_eq_any (entries : List (String × Expr)) :
    anyEntryHasVariables entries = (entries.map Prod.snd).any hasVariables := by
  induction entries with
  | nil => rfl
  | cons e rest ih => rw [anyEntryHasVariables, ih, List.map_cons, List.any_cons]

theorem hasVariables_eq (e : Expr) :
    e.hasVariables = (e.name?.isSome || e.children.any hasVariables) := by
  cases e with
  | array elements p => simp [hasVariables, anyHasVariables_eq_any, name?, children]
  | map entries p => simp [hasVariables, anyEntryHasVariables_eq_any, name?, children]
  | _ => simp [hasVariables, name?, children]

/-- **No names are listed just if there are no variables.** -/
theorem names_eq_nil_iff {e : Expr} : e.names = [] ↔ e.hasVariables = false := by
  induction e using induction_on_children with
  | node e ih =>
    have hbelow : (∀ c ∈ e.children, c.names = []) ↔ ∀ c ∈ e.children, c.hasVariables = false :=
      forall₂_congr ih
    have hany : e.children.any hasVariables = false ↔ ∀ c ∈ e.children, c.hasVariables = false := by
      simp
    rw [names_eq, hasVariables_eq, List.append_eq_nil_iff, Option.toList_eq_nil_iff,
      List.flatMap_eq_nil_iff, hbelow, Bool.or_eq_false_iff, hany, Option.isSome_eq_false_iff,
      Option.isNone_iff_eq_none]

end Expr
end ExprLang
