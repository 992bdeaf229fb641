import ExprLang.Proofs.Outcome
import ExprLang.Value.Indexing

/-!
# Asking before indexing

`contains` answers whether a subscript would have a result, without computing one, and it is an
analysis of cases of its own: it goes by the length where indexing reads elements, and by the keys
where indexing collects entries.  The two agree on all pairs of values
(`contains_iff_exists_index`).

* For an ordered value the question is whether the selection succeeds.  Reading what was selected
  cannot fail, since places are within the length.
* For a map with an array of keys there is a step for each element, and all of them have to succeed.
  One step succeeds just if its key is bound (`exists_entryFor_iff`).
* What has no length is not indexed at all (`index_of_length_eq_error`).
-/

namespace ExprLang
namespace Value

theorem succeeds_iff {α : Type} {o : Outcome α} : succeeds o = true ↔ ∃ a, o = .ok a := by
  cases o with
  | ok a => exact iff_of_true rfl ⟨a, rfl⟩
  | error f => exact iff_of_false Bool.false_ne_true fun ⟨_, h⟩ => nomatch h

/-- **Without a length there are no elements**, whatever the index is. -/
theorem index_of_length_eq_error {v : Value} {f : Fault} (h : v.length = .error f) (i : Value) :
    v.index i = .error (v.indexFault i) := by
  obtain ⟨payload, p⟩ := v
  cases payload with
  | boolean b => rfl
  | number x => rfl
  | undefined => rfl
  | _ => cases h

/-! ## Entries of a map -/

section
variable {v i : Value} {entries : Entries Value}

theorem entryFor_eq_ok_iff {entry : String × Value} : v.entryFor entries i = .ok entry ↔
    i.key? = some entry.1 ∧ Entries.lookup entry.1 entries = some entry.2 := by
  cases hkey : i.key? with
  | none =>
    have hfault : v.entryFor entries i = .error (v.indexFault i) := by simp [entryFor, hkey]
    rw [hfault]
    exact iff_of_false nofun fun h => nomatch h.1
  | some key =>
    cases hfound : Entries.lookup key entries with
    | none =>
      have hfault : v.entryFor entries i = .error (v.indexFault i) := by
        simp [entryFor, hkey, hfound]
      rw [hfault]
      refine iff_of_false nofun ?_
      rintro ⟨⟨⟩, h⟩
      rw [hfound] at h
      cases h
    | some found =>
      have hentry : v.entryFor entries i = .ok (key, found) := by simp [entryFor, hkey, hfound]
      rw [hentry]
      constructor
      · rintro ⟨⟩
        exact ⟨rfl, hfound⟩
      · rintro ⟨hread, h⟩
        obtain rfl : key = entry.1 := Option.some.inj hread
        rw [hfound] at h
        cases h
        rfl

/-- An element of an array of keys has an entry just if its key is bound. -/
theorem exists_entryFor_iff : (∃ entry, v.entryFor entries i = .ok entry) ↔
    (i.key?.any fun key => Entries.contains key entries) = true := by
  rw [Option.any_eq_true]
  constructor
  · rintro ⟨⟨key, found⟩, h⟩
    obtain ⟨hkey, hfound⟩ := entryFor_eq_ok_iff.1 h
    exact ⟨key, hkey, Option.isSome_iff_exists.2 ⟨found, hfound⟩⟩
  · rintro ⟨key, hkey, hbound⟩
    obtain ⟨found, hfound⟩ := Option.isSome_iff_exists.1 hbound
    exact ⟨(key, found), entryFor_eq_ok_iff.2 ⟨hkey, hfound⟩⟩

/-- The fault of an element names that element. -/
theorem eq_of_entryFor_eq_error {f : Fault} (h : v.entryFor entries i = .error f) :
    f = v.indexFault i := by
  unfold entryFor at h
  split at h
  · cases h
  · exact (Except.error.inj h).symm

end

/-! ## The two analyses -/

section
variable {p : Position} {entries : Entries Value}

theorem index_map_of_lookup {key : String} {q : Position} {found : Value}
    (h : Entries.lookup key entries = some found) :
    (⟨.map entries, p⟩ : Value).index ⟨.string key, q⟩ = .ok found := by
  simp only [index, h]

theorem index_map_of_lookup_eq_none {key : String} {q : Position}
    (h : Entries.lookup key entries = none) :
    (⟨.map entries, p⟩ : Value).index ⟨.string key, q⟩ =
      .error (indexFault ⟨.map entries, p⟩ ⟨.string key, q⟩) := by
  simp only [index, h]

/-- A map is asked for one key. -/
theorem contains_map_string_iff {key : String} {q : Position} :
    (⟨.map entries, p⟩ : Value).contains ⟨.string key, q⟩ = true ↔
      ∃ w, (⟨.map entries, p⟩ : Value).index ⟨.string key, q⟩ = .ok w := by
  have hcontains : (⟨.map entries, p⟩ : Value).contains ⟨.string key, q⟩ =
      (Entries.lookup key entries).isSome := rfl
  rw [hcontains, Option.isSome_iff_exists]
  constructor
  · rintro ⟨found, hfound⟩
    exact ⟨found, index_map_of_lookup hfound⟩
  · rintro ⟨w, hw⟩
    cases hfound : Entries.lookup key entries with
    | some found => exact ⟨found, rfl⟩
    | none =>
      rw [index_map_of_lookup_eq_none hfound] at hw
      cases hw

/-- A map is asked for several keys at once. -/
theorem contains_map_array_iff {keys : List Value} {q : Position} :
    (⟨.map entries, p⟩ : Value).contains ⟨.array keys, q⟩ = true ↔
      ∃ w, (⟨.map entries, p⟩ : Value).index ⟨.array keys, q⟩ = .ok w := by
  have hcontains : (⟨.map entries, p⟩ : Value).contains ⟨.array keys, q⟩ = true ↔
      ∀ k ∈ keys, ∃ entry, (⟨.map entries, p⟩ : Value).entryFor entries k = .ok entry := by
    simp only [exists_entryFor_iff]
    exact List.all_eq_true
  have hindex : (⟨.map entries, p⟩ : Value).index ⟨.array keys, q⟩ =
      Except.map (fun chosen => map (Entries.ofList chosen))
        (keys.mapM ((⟨.map entries, p⟩ : Value).entryFor entries)) := rfl
  rw [hcontains, hindex, Outcome.exists_map_eq_ok_iff, Outcome.exists_mapM_eq_ok_iff]

end

/-- **Asking predicts indexing**: a value contains an index just if the subscript has a result. -/
theorem contains_iff_exists_index (v i : Value) : v.contains i = true ↔ ∃ w, v.index i = .ok w := by
  obtain ⟨payload, p⟩ := v
  cases payload with
  | array items => exact succeeds_iff.trans Outcome.exists_map_eq_ok_iff.symm
  | range integers => exact succeeds_iff.trans Outcome.exists_map_eq_ok_iff.symm
  | string s => exact succeeds_iff.trans Outcome.exists_map_eq_ok_iff.symm
  | map entries =>
    obtain ⟨index, q⟩ := i
    cases index with
    | string key => exact contains_map_string_iff
    | array keys => exact contains_map_array_iff
    | _ => exact iff_of_false Bool.false_ne_true fun ⟨_, h⟩ => nomatch h
  | _ => exact iff_of_false Bool.false_ne_true fun ⟨_, h⟩ => nomatch h

end Value
end ExprLang
