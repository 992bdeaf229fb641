/-!
# Tables sorted by key

Maps, the variables of a scope and the fields of a data text are lists of entries, each a key and what
it is bound to.  A table keeps its keys in increasing order and each key once.  Order is that of the code
points.

The type stays the plain list of pairs, since values contain maps of values and a list carries no proof
that would stand in the way.  `insert` makes one pass and needs no order to do right by look-ups:
`lookup_insert` holds of any list.  What order adds is that a table is determined by its look-ups, so two
tables with the same bindings are the same list.
-/

namespace ExprLang

/-- A list of bindings, one for each key. -/
abbrev Entries (α : Type) := List (String × α)

namespace Entries
variable {α : Type}

/-- The keys, in order. -/
def keys (entries : Entries α) : List String := entries.map Prod.fst

/-- What a key is bound to. -/
def lookup (key : String) : Entries α → Option α
  | [] => none
  | (k, a) :: rest => if k = key then some a else lookup key rest

/-- Binds a key, in place of what it was bound to. -/
def insert (key : String) (a : α) : Entries α → Entries α
  | [] => [(key, a)]
  | (k, b) :: rest =>
    if key < k then (key, a) :: (k, b) :: rest
    else if key = k then (key, a) :: rest
    else (k, b) :: insert key a rest

/-- Puts a value into the place of the one that a key is bound to, and tells whether there is such a place. -/
def overwrite (key : String) (a : α) : Entries α → Entries α × Bool
  | [] => ([], false)
  | (k, b) :: rest =>
    if k = key then ((k, a) :: rest, true)
    else
      let (rest, found) := overwrite key a rest
      ((k, b) :: rest, found)

/-- The table of a list of bindings: a later one of a key replaces an earlier one. -/
def ofList (bindings : List (String × α)) : Entries α :=
  bindings.foldl (fun entries b => insert b.1 b.2 entries) []

/-- Both tables in one; where both bind a key, the second wins. -/
def merge (first second : Entries α) : Entries α :=
  second.foldl (fun entries b => insert b.1 b.2 entries) first

/-- Whether a key is bound. -/
def contains (key : String) (entries : Entries α) : Bool := (lookup key entries).isSome

/-- The keys increase. -/
def Sorted (entries : Entries α) : Prop := entries.keys.Pairwise (· < ·)

/-! ## Look-ups -/

@[simp] theorem lookup_nil (key : String) : lookup key ([] : Entries α) = none := rfl

theorem lookup_cons (key k : String) (a : α) (rest : Entries α) :
    lookup key ((k, a) :: rest) = if k = key then some a else lookup key rest := rfl

/-- **Inserting binds the key and nothing else.** -/
theorem lookup_insert (key key' : String) (a : α) (entries : Entries α) :
    lookup key' (insert key a entries) = if key = key' then some a else lookup key' entries := by
  induction entries with
  | nil => rfl
  | cons head rest ih =>
    obtain ⟨k, b⟩ := head
    unfold insert
    split
    · rfl
    · split
      · rename_i h
        subst h
        by_cases h' : key = key' <;> simp [lookup_cons, h']
      · rename_i hne
        rw [lookup_cons, ih, lookup_cons]
        by_cases h' : key = key'
        · subst h'
          simp [Ne.symm hne]
        · simp [h']

/-! ## Overwriting -/

section
variable {key : String} {a : α}

theorem overwrite_cons_self (b : α) (rest : Entries α) :
    overwrite key a ((key, b) :: rest) = ((key, a) :: rest, true) := if_pos rfl

theorem overwrite_cons_of_ne {k : String} (h : k ≠ key) (b : α) (rest : Entries α) :
    overwrite key a ((k, b) :: rest) = ((k, b) :: (overwrite key a rest).1, (overwrite key a rest).2) :=
  if_neg h

/-- There is a place for a key just if it is bound. -/
theorem overwrite_found (entries : Entries α) :
    (overwrite key a entries).2 = contains key entries := by
  induction entries with
  | nil => rfl
  | cons head rest ih =>
    obtain ⟨k, b⟩ := head
    rw [contains, lookup_cons]
    by_cases h : k = key
    · subst h
      rw [overwrite_cons_self, if_pos rfl]
      rfl
    · rw [overwrite_cons_of_ne h, if_neg h]
      exact ih

/-- **Overwriting keeps the keys.** -/
theorem keys_overwrite (entries : Entries α) : keys (overwrite key a entries).1 = entries.keys := by
  induction entries with
  | nil => rfl
  | cons head rest ih =>
    obtain ⟨k, b⟩ := head
    by_cases h : k = key
    · subst h
      rw [overwrite_cons_self]
      rfl
    · rw [overwrite_cons_of_ne h]
      exact congrArg (k :: ·) ih

/-- **What is bound is overwritten, and nothing else.** -/
theorem lookup_overwrite {entries : Entries α} (h : contains key entries = true) (key' : String) :
    lookup key' (overwrite key a entries).1 = if key = key' then some a else lookup key' entries := by
  induction entries with
  | nil => cases h
  | cons head rest ih =>
    obtain ⟨k, b⟩ := head
    by_cases hk : k = key
    · subst hk
      rw [overwrite_cons_self, lookup_cons, lookup_cons]
      split <;> rfl
    · rw [contains, lookup_cons, if_neg hk] at h
      rw [overwrite_cons_of_ne hk, lookup_cons, lookup_cons, ih h]
      by_cases hkey : key = key'
      · subst hkey
        rw [if_neg hk, if_pos rfl, if_pos rfl]
      · rw [if_neg hkey, if_neg hkey]

/-- **Where a key is not bound, overwriting changes nothing.** -/
theorem overwrite_of_not_contains {entries : Entries α} (h : contains key entries = false) :
    (overwrite key a entries).1 = entries := by
  induction entries with
  | nil => rfl
  | cons head rest ih =>
    obtain ⟨k, b⟩ := head
    rw [contains, lookup_cons] at h
    by_cases hk : k = key
    · rw [if_pos hk] at h
      cases h
    · rw [if_neg hk] at h
      rw [overwrite_cons_of_ne hk, ih h]

end

/-! ## Order of the keys -/

theorem mem_keys_insert {key k : String} {a : α} {entries : Entries α} :
    k ∈ (insert key a entries).keys ↔ k = key ∨ k ∈ entries.keys := by
  induction entries with
  | nil => simp [insert, keys]
  | cons head rest ih =>
    obtain ⟨j, b⟩ := head
    unfold insert
    split
    · simp [keys]
    · split
      · rename_i h
        subst h
        simp [keys]
      · simp only [keys, List.map_cons, List.mem_cons] at ih ⊢
        rw [ih]
        constructor
        · rintro (h | h | h)
          · exact .inr (.inl h)
          · exact .inl h
          · exact .inr (.inr h)
        · rintro (h | h | h)
          · exact .inr (.inl h)
          · exact .inl h
          · exact .inr (.inr h)

theorem sorted_nil : Sorted ([] : Entries α) := List.Pairwise.nil

/-- Inserting keeps the keys in order. -/
theorem sorted_insert {key : String} {a : α} {entries : Entries α} (h : entries.Sorted) :
    (insert key a entries).Sorted := by
  induction entries with
  | nil => exact List.pairwise_singleton _ _
  | cons head rest ih =>
    obtain ⟨j, b⟩ := head
    have hrest : Sorted rest := (List.pairwise_cons.1 h).2
    have hj : ∀ k ∈ keys rest, j < k := (List.pairwise_cons.1 h).1
    unfold insert
    split
    · rename_i hlt
      refine List.pairwise_cons.2 ⟨fun k hk => ?_, h⟩
      rcases List.mem_cons.1 hk with rfl | hk
      · exact hlt
      · exact String.lt_trans hlt (hj k hk)
    · split
      · rename_i heq
        subst heq
        exact List.pairwise_cons.2 ⟨hj, hrest⟩
      · rename_i hnlt hne
        refine List.pairwise_cons.2 ⟨fun k hk => ?_, ih hrest⟩
        rcases mem_keys_insert.1 hk with rfl | hk
        · -- neither smaller nor equal, hence greater
          exact String.not_le.1 fun hle => hne (String.le_antisymm hle (String.not_lt.1 hnlt))
        · exact hj k hk

/-- Overwriting keeps the keys in order. -/
theorem sorted_overwrite {key : String} {a : α} {entries : Entries α} (h : entries.Sorted) :
    Sorted (overwrite key a entries).1 := by
  unfold Sorted
  rw [keys_overwrite]
  exact h

/-- Merging keeps the keys in order. -/
theorem sorted_merge {first second : Entries α} (h : first.Sorted) : (merge first second).Sorted := by
  unfold merge
  induction second generalizing first with
  | nil => exact h
  | cons b rest ih => exact ih (sorted_insert h)

theorem ofList_eq_merge (bindings : List (String × α)) : ofList bindings = merge [] bindings := rfl

/-- **A table made of any bindings is sorted.** -/
theorem sorted_ofList (bindings : List (String × α)) : (ofList bindings).Sorted :=
  sorted_merge sorted_nil

end Entries
end ExprLang
