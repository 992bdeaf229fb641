import ExprLang.Entries
import Mathlib.Data.List.Induction

/-!
# Merged tables

A sorted table is known by its look-ups (`Sorted.ext`), and a merged table is looked up in the second
table first and then in the first (`lookup_merge`).  So laws of merging are laws of `Option.or`, and
associativity is one of them (`merge_assoc`).

What is merged in may also be a list of bindings in any order, with keys repeated.  If all of them
come from one source, it does not matter which of two counts (`lookup_merge_of_source`).
-/

namespace ExprLang
namespace Entries
variable {α : Type}

theorem mem_keys_of_lookup_eq_some {key : String} {a : α} {entries : Entries α}
    (h : lookup key entries = some a) : key ∈ entries.keys := by
  induction entries with
  | nil => cases h
  | cons head rest ih =>
    obtain ⟨k, b⟩ := head
    rw [lookup_cons] at h
    by_cases hk : k = key
    · rw [← hk]
      exact List.mem_cons_self
    · rw [if_neg hk] at h
      exact List.mem_cons_of_mem k (ih h)

theorem mem_keys_iff {key : String} {entries : Entries α} :
    key ∈ entries.keys ↔ ∃ a, lookup key entries = some a := by
  refine ⟨fun h => ?_, fun ⟨_, h⟩ => mem_keys_of_lookup_eq_some h⟩
  induction entries with
  | nil => exact absurd h List.not_mem_nil
  | cons head rest ih =>
    obtain ⟨k, b⟩ := head
    rw [lookup_cons]
    by_cases hk : k = key
    · exact ⟨b, if_pos hk⟩
    · have hrest : key ∈ keys rest := (List.mem_cons.1 h).resolve_left (Ne.symm hk)
      rw [if_neg hk]
      exact ih hrest

theorem lookup_eq_none_of_not_mem_keys {key : String} {entries : Entries α} (h : key ∉ entries.keys) :
    lookup key entries = none :=
  Option.eq_none_iff_forall_ne_some.2 fun _ ha => h (mem_keys_of_lookup_eq_some ha)

namespace Sorted
variable {k : String} {a : α} {rest : Entries α}

theorem tail (h : Sorted ((k, a) :: rest)) : Sorted rest := (List.pairwise_cons.1 h).2

theorem lt_of_mem_keys (h : Sorted ((k, a) :: rest)) {key : String} (hkey : key ∈ keys rest) :
    k < key :=
  (List.pairwise_cons.1 h).1 key hkey

/-- The first key does not come again. -/
theorem lookup_head_tail (h : Sorted ((k, a) :: rest)) : lookup k rest = none := by
  cases hlookup : lookup k rest with
  | none => rfl
  | some b => exact absurd (h.lt_of_mem_keys (mem_keys_of_lookup_eq_some hlookup)) (String.lt_irrefl k)

/-- The first key is the least of those that are bound. -/
theorem le_of_lookup_eq_some (h : Sorted ((k, a) :: rest)) {key : String} {b : α}
    (hkey : lookup key ((k, a) :: rest) = some b) : k ≤ key := by
  rcases List.mem_cons.1 (mem_keys_of_lookup_eq_some hkey) with rfl | hmem
  · exact String.le_refl _
  · exact String.not_lt.1 fun hlt =>
      String.lt_irrefl k (String.lt_trans (h.lt_of_mem_keys hmem) hlt)

/-- **Sorted tables with the same look-ups are the same.** -/
theorem ext {first second : Entries α} (hfirst : first.Sorted) (hsecond : second.Sorted)
    (h : ∀ key, lookup key first = lookup key second) : first = second := by
  induction first generalizing second with
  | nil =>
    cases second with
    | nil => rfl
    | cons head rest =>
      have hhead := h head.1
      rw [lookup_nil, lookup_cons, if_pos rfl] at hhead
      cases hhead
  | cons head rest ih =>
    obtain ⟨k, a⟩ := head
    cases second with
    | nil =>
      have hhead := h k
      rw [lookup_nil, lookup_cons, if_pos rfl] at hhead
      cases hhead
    | cons head' rest' =>
      obtain ⟨j, b⟩ := head'
      -- each of the two first keys is bound on the other side
      have hk : lookup k ((j, b) :: rest') = some a := by rw [← h k, lookup_cons, if_pos rfl]
      have hj : lookup j ((k, a) :: rest) = some b := by rw [h j, lookup_cons, if_pos rfl]
      obtain rfl : k = j :=
        String.le_antisymm (hfirst.le_of_lookup_eq_some hj) (hsecond.le_of_lookup_eq_some hk)
      rw [lookup_cons, if_pos rfl] at hk
      obtain rfl : b = a := Option.some.inj hk
      refine congrArg ((k, b) :: ·) (ih hfirst.tail hsecond.tail fun key => ?_)
      by_cases hkey : k = key
      · rw [← hkey, hfirst.lookup_head_tail, hsecond.lookup_head_tail]
      · have hrest := h key
        rwa [lookup_cons, lookup_cons, if_neg hkey, if_neg hkey] at hrest

end Sorted

/-- **A merged table is looked up in the second table first.** -/
theorem lookup_merge {first second : Entries α} (h : second.Sorted) (key : String) :
    lookup key (merge first second) = (lookup key second).or (lookup key first) := by
  induction second generalizing first with
  | nil => rw [lookup_nil, Option.none_or]; rfl
  | cons head rest ih =>
    obtain ⟨k, a⟩ := head
    show lookup key (merge (insert k a first) rest) = _
    rw [ih h.tail, lookup_insert, lookup_cons]
    by_cases hkey : k = key
    · rw [if_pos hkey, if_pos hkey, ← hkey, h.lookup_head_tail]
      rfl
    · rw [if_neg hkey, if_neg hkey]

/-- **A merged table has the keys of both.** -/
theorem mem_keys_merge {key : String} {first second : Entries α} :
    key ∈ (merge first second).keys ↔ key ∈ first.keys ∨ key ∈ second.keys := by
  induction second generalizing first with
  | nil => exact (or_iff_left List.not_mem_nil).symm
  | cons b rest ih =>
    have hhead : key ∈ keys (b :: rest) ↔ key = b.1 ∨ key ∈ keys rest := List.mem_cons
    show key ∈ (merge (insert b.1 b.2 first) rest).keys ↔ _
    rw [ih, mem_keys_insert, hhead, ← or_assoc, or_comm (a := key = b.1)]

theorem mem_keys_ofList {key : String} {bindings : List (String × α)} :
    key ∈ (ofList bindings).keys ↔ key ∈ keys bindings := by
  rw [ofList_eq_merge, mem_keys_merge]
  exact or_iff_right List.not_mem_nil

/-- **A table made of bindings is looked up among them from the last to the first.** -/
theorem lookup_ofList (key : String) (bindings : List (String × α)) :
    lookup key (ofList bindings) = lookup key bindings.reverse := by
  induction bindings using List.reverseRecOn with
  | nil => rfl
  | append_singleton bindings b ih =>
    have hlast : ofList (bindings ++ [b]) = insert b.1 b.2 (ofList bindings) := List.foldl_append
    rw [hlast, lookup_insert, List.reverse_append, List.reverse_singleton, List.singleton_append,
      lookup_cons, ih]

/-- **Merging in bindings that all come from one source** looks their keys up there.  They need not be
sorted, and may repeat a key. -/
theorem lookup_merge_of_source (source : String → Option α) {bindings : List (String × α)}
    (h : ∀ b ∈ bindings, source b.1 = some b.2) (first : Entries α) (key : String) :
    lookup key (merge first bindings) =
      if key ∈ keys bindings then source key else lookup key first := by
  induction bindings generalizing first with
  | nil => rfl
  | cons b rest ih =>
    have hb : source b.1 = some b.2 := h b List.mem_cons_self
    have hrest := ih (fun c hc => h c (List.mem_cons_of_mem b hc)) (insert b.1 b.2 first)
    rw [lookup_insert] at hrest
    show lookup key (merge (insert b.1 b.2 first) rest) = _
    rw [hrest]
    by_cases hkey : b.1 = key
    · subst hkey
      have hmem : b.1 ∈ keys (b :: rest) := List.mem_cons_self
      rw [if_pos rfl, if_pos hmem, hb, ite_self]
    · have hmem : key ∈ keys (b :: rest) ↔ key ∈ keys rest :=
        List.mem_cons.trans (or_iff_right (Ne.symm hkey))
      rw [if_neg hkey]
      simp only [hmem]

/-- A table is the table of its own entries. -/
theorem ofList_of_sorted {entries : Entries α} (h : entries.Sorted) : ofList entries = entries := by
  refine Sorted.ext (sorted_ofList entries) h fun key => ?_
  rw [ofList_eq_merge, lookup_merge h, lookup_nil, Option.or_none]

theorem nil_merge {second : Entries α} (h : second.Sorted) : merge [] second = second :=
  ofList_of_sorted h

/-- **Merging is associative.** -/
theorem merge_assoc {first second third : Entries α} (h₁ : first.Sorted) (h₂ : second.Sorted)
    (h₃ : third.Sorted) :
    merge first (merge second third) = merge (merge first second) third := by
  refine Sorted.ext (sorted_merge h₁) (sorted_merge (sorted_merge h₁)) fun key => ?_
  rw [lookup_merge (sorted_merge h₂), lookup_merge h₃, lookup_merge h₃, lookup_merge h₂,
    Option.or_assoc]

end Entries
end ExprLang
