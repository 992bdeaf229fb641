import ExprLang.Entries

/-!
# Tables with other values

A function on values can be applied to all values of a table, under keys that stay as they are.  No
operation on tables looks at a value, so each of them may be done before or after that: looking a key
up (`lookup_map`), binding one (`insert_map`), merging and making a table of bindings (`merge_map`,
`ofList_map`).  In particular a table stays sorted (`sorted_map_iff`).
-/

namespace ExprLang
namespace Entries
variable {α β : Type} (f : α → β)

@[simp] theorem keys_map (entries : Entries α) :
    keys (entries.map (Prod.map id f)) = keys entries := by
  rw [keys, keys, List.map_map]
  rfl

/-- Only the keys decide whether a table is sorted. -/
theorem sorted_map_iff {entries : Entries α} :
    Sorted (entries.map (Prod.map id f)) ↔ Sorted entries := by
  rw [Sorted, Sorted, keys_map]

theorem lookup_map (key : String) (entries : Entries α) :
    lookup key (entries.map (Prod.map id f)) = (lookup key entries).map f := by
  induction entries with
  | nil => rfl
  | cons head rest ih =>
    obtain ⟨k, a⟩ := head
    rw [List.map_cons, Prod.map_apply, lookup_cons, lookup_cons, ih, id]
    split <;> rfl

/-- **Where a binding goes depends on its key.** -/
theorem insert_map (key : String) (a : α) (entries : Entries α) :
    insert key (f a) (entries.map (Prod.map id f)) =
      (insert key a entries).map (Prod.map id f) := by
  induction entries with
  | nil => rfl
  | cons head rest ih =>
    obtain ⟨k, b⟩ := head
    rw [List.map_cons, Prod.map_apply, insert, insert, ih, id]
    split
    · rfl
    · split <;> rfl

theorem merge_map (first second : Entries α) :
    merge (first.map (Prod.map id f)) (second.map (Prod.map id f)) =
      (merge first second).map (Prod.map id f) := by
  induction second generalizing first with
  | nil => rfl
  | cons b rest ih =>
    have hhead := insert_map f b.1 b.2 first
    show merge (insert b.1 (f b.2) (first.map (Prod.map id f))) (rest.map (Prod.map id f)) = _
    rw [hhead, ih]
    rfl

theorem ofList_map (bindings : List (String × α)) :
    ofList (bindings.map (Prod.map id f)) = (ofList bindings).map (Prod.map id f) :=
  merge_map f [] bindings

end Entries
end ExprLang
