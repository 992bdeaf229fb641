import ExprLang.Proofs.Entries.Merging
import ExprLang.Proofs.Value.Indexing
import ExprLang.Proofs.Value.Rendering

/-!
# Parts of a map

A map indexed by an array of keys gives the part of the map with these keys.  `SelectsPart` says what
that comes to, given how an element of the array is read as a key: there is a part just if every
element is read as a key of the map; the part has these keys and no others, each bound as in the
map; and otherwise the fault names the first element that is not a key.

That law holds if null is read as the empty key (`selectsPart_index`).  A single index is not read
that way: a map has no element for null, even if it has one for the empty key.  So the law in which
strings alone are keys, which is what one would expect from single indices, fails where the two
readings come apart.  That is where null is the first element that is no string key of the map, and
the map has the empty key; and it is nowhere else.  `selectsPart_index_and_stringKey?_iff` has both
laws.

To tell that the wrong element is named one needs to know that null is not shown as some other value
is (`kind_eq_null_of_text`).
-/

namespace ExprLang
namespace Value

/-! ## Elements read as keys -/

/-- The key that a string is; nothing else is one. -/
def stringKey? (k : Value) : Option String :=
  match k.payload with
  | .string s => some s
  | _ => none

/-- An element is read as one of the keys of a map. -/
def IsKey (read : Value → Option String) (entries : Entries Value) (k : Value) : Prop :=
  ∃ key, read k = some key ∧ key ∈ entries.keys

section
variable {entries : Entries Value} {k : Value}

theorem key?_of_stringKey? {key : String} (h : k.stringKey? = some key) : k.key? = some key := by
  obtain ⟨payload, p⟩ := k
  cases payload with
  | string s => exact h
  | _ => cases h

theorem exists_eq_of_kind_eq_null (h : k.kind = .null) : ∃ p, k = ⟨.null, p⟩ := by
  obtain ⟨payload, p⟩ := k
  cases payload with
  | null => exact ⟨p, rfl⟩
  | _ => cases h

theorem key?_of_kind_eq_null (h : k.kind = .null) : k.key? = some "" := by
  obtain ⟨p, rfl⟩ := exists_eq_of_kind_eq_null h
  rfl

/-- The two readings differ in null only. -/
theorem stringKey?_or_kind_eq_null {key : String} (h : k.key? = some key) :
    k.stringKey? = some key ∨ (k.kind = .null ∧ key = "") := by
  obtain ⟨payload, p⟩ := k
  cases payload with
  | string s => exact .inl h
  | null => exact .inr ⟨rfl, (Option.some.inj h).symm⟩
  | _ => cases h

/-- **Null is a key besides the strings** where the empty key is bound. -/
theorem isKey_key?_iff : IsKey key? entries k ↔
    IsKey stringKey? entries k ∨ (k.kind = .null ∧ "" ∈ entries.keys) := by
  constructor
  · rintro ⟨key, hread, hkey⟩
    rcases stringKey?_or_kind_eq_null hread with hstring | ⟨hnull, rfl⟩
    · exact .inl ⟨key, hstring, hkey⟩
    · exact .inr ⟨hnull, hkey⟩
  · rintro (⟨key, hread, hkey⟩ | ⟨hnull, hempty⟩)
    · exact ⟨key, key?_of_stringKey? hread, hkey⟩
    · exact ⟨"", key?_of_kind_eq_null hnull, hempty⟩

theorem not_isKey_stringKey?_of_null (h : k.kind = .null) : ¬ IsKey stringKey? entries k := by
  rintro ⟨key, hread, -⟩
  obtain ⟨p, rfl⟩ := exists_eq_of_kind_eq_null h
  cases hread

theorem isKey_key?_iff_exists_entryFor {v : Value} :
    IsKey key? entries k ↔ ∃ entry, v.entryFor entries k = .ok entry := by
  constructor
  · rintro ⟨key, hread, hkey⟩
    obtain ⟨found, hfound⟩ := Entries.mem_keys_iff.1 hkey
    exact ⟨(key, found), entryFor_eq_ok_iff.2 ⟨hread, hfound⟩⟩
  · rintro ⟨⟨key, found⟩, h⟩
    obtain ⟨hread, hfound⟩ := entryFor_eq_ok_iff.1 h
    exact ⟨key, hread, Entries.mem_keys_of_lookup_eq_some hfound⟩

end

/-! ## The part -/

/-- What the outcome of selecting a part of the map `m` is, if the elements of the array of keys are
read in a given way. -/
structure SelectsPart (read : Value → Option String) (m : Value) (entries : Entries Value)
    (keys : List Value) (o : Outcome Value) : Prop where
  /-- There is a part just if all elements are keys of the map. -/
  exists_ok_iff : (∃ w, o = .ok w) ↔ ∀ k ∈ keys, IsKey read entries k
  /-- It has the keys that are asked for, and each is bound to what the map gives for it. -/
  part : ∀ w, o = .ok w → ∃ part : Entries Value, w = map part ∧ part.Sorted ∧
    (∀ key, key ∈ part.keys ↔ ∃ k ∈ keys, read k = some key) ∧
    ∀ key ∈ part.keys, ∃ found, Entries.lookup key part = some found ∧ m.get key = .ok found
  /-- Otherwise the fault names the first element that is not a key of the map. -/
  fault : ∀ before k after, keys = before ++ k :: after →
    (∀ earlier ∈ before, IsKey read entries earlier) → ¬ IsKey read entries k →
      o = .error (m.indexFault k)

section
variable {entries : Entries Value} {p q : Position} {keys : List Value}

theorem index_map_array (entries : Entries Value) (p q : Position) (keys : List Value) :
    (⟨.map entries, p⟩ : Value).index ⟨.array keys, q⟩ =
      Except.map (fun chosen => map (Entries.ofList chosen))
        (keys.mapM ((⟨.map entries, p⟩ : Value).entryFor entries)) := rfl

/-- The entries that were chosen make a table of their own, and it is looked up in the map. -/
theorem lookup_ofList_chosen {v : Value} {chosen : List (String × Value)}
    (h : keys.mapM (v.entryFor entries) = .ok chosen) (key : String) :
    Entries.lookup key (Entries.ofList chosen) =
      if key ∈ Entries.keys chosen then Entries.lookup key entries else none := by
  have hsource : ∀ entry ∈ chosen, Entries.lookup entry.1 entries = some entry.2 := by
    intro entry hentry
    obtain ⟨k, _, hk⟩ := (Outcome.mem_iff_of_mapM_eq_ok h).1 hentry
    exact (entryFor_eq_ok_iff.1 hk).2
  exact Entries.lookup_merge_of_source (fun key => Entries.lookup key entries) hsource [] key

/-- The keys of the entries that were chosen are those that the elements are read as. -/
theorem mem_keys_chosen_iff {v : Value} {chosen : List (String × Value)}
    (h : keys.mapM (v.entryFor entries) = .ok chosen) {key : String} :
    key ∈ Entries.keys chosen ↔ ∃ k ∈ keys, k.key? = some key := by
  constructor
  · intro hkey
    obtain ⟨entry, hentry, rfl⟩ := List.mem_map.1 hkey
    obtain ⟨k, hk, hread⟩ := (Outcome.mem_iff_of_mapM_eq_ok h).1 hentry
    exact ⟨k, hk, (entryFor_eq_ok_iff.1 hread).1⟩
  · rintro ⟨k, hk, hread⟩
    obtain ⟨entry, hentry⟩ := Outcome.exists_mapM_eq_ok_iff.1 ⟨chosen, h⟩ k hk
    have hchosen : entry ∈ chosen := (Outcome.mem_iff_of_mapM_eq_ok h).2 ⟨k, hk, hentry⟩
    obtain rfl : key = entry.1 := by
      have hown := (entryFor_eq_ok_iff.1 hentry).1
      rw [hread] at hown
      exact Option.some.inj hown
    exact List.mem_map_of_mem hchosen

/-- **Selecting a part of a map**, with null read as the empty key. -/
theorem selectsPart_index (entries : Entries Value) (p q : Position) (keys : List Value) :
    SelectsPart key? ⟨.map entries, p⟩ entries keys
      ((⟨.map entries, p⟩ : Value).index ⟨.array keys, q⟩) where
  exists_ok_iff := by
    rw [index_map_array, Outcome.exists_map_eq_ok_iff, Outcome.exists_mapM_eq_ok_iff]
    exact forall₂_congr fun k _ => isKey_key?_iff_exists_entryFor.symm
  part := by
    intro w hw
    rw [index_map_array] at hw
    obtain ⟨chosen, hchosen, rfl⟩ := Outcome.map_eq_ok_iff.1 hw
    refine ⟨Entries.ofList chosen, rfl, Entries.sorted_ofList chosen, fun key => ?_, ?_⟩
    · rw [Entries.mem_keys_ofList, mem_keys_chosen_iff hchosen]
    · intro key hkey
      obtain ⟨found, hfound⟩ := Entries.mem_keys_iff.1 hkey
      refine ⟨found, hfound, index_map_of_lookup ?_⟩
      rwa [lookup_ofList_chosen hchosen, if_pos (Entries.mem_keys_ofList.1 hkey)] at hfound
  fault := by
    intro before k after hsplit hbefore hk
    rw [index_map_array]
    obtain ⟨f, hf⟩ : ∃ f, (⟨.map entries, p⟩ : Value).entryFor entries k = .error f := by
      cases hentry : (⟨.map entries, p⟩ : Value).entryFor entries k with
      | ok entry => exact absurd (isKey_key?_iff_exists_entryFor.2 ⟨entry, hentry⟩) hk
      | error f => exact ⟨f, rfl⟩
    have hmapM : keys.mapM ((⟨.map entries, p⟩ : Value).entryFor entries) = .error f := by
      refine Outcome.mapM_eq_error_iff.2 ⟨before, k, after, hsplit, fun earlier hearlier => ?_, hf⟩
      exact isKey_key?_iff_exists_entryFor.1 (hbefore earlier hearlier)
    rw [hmapM, eq_of_entryFor_eq_error hf]
    rfl

end

/-! ## Strings alone as keys -/

/-- All elements of a list have a property, or there is a first one that has not. -/
theorem forall_or_exists_first {α : Type} (P : α → Prop) (as : List α) :
    (∀ a ∈ as, P a) ∨ ∃ before a after, as = before ++ a :: after ∧
      (∀ earlier ∈ before, P earlier) ∧ ¬ P a := by
  induction as with
  | nil => exact .inl fun _ ha => absurd ha List.not_mem_nil
  | cons a as ih =>
    by_cases ha : P a
    · rcases ih with hall | ⟨before, b, after, rfl, hbefore, hb⟩
      · exact .inl (List.forall_mem_cons.2 ⟨ha, hall⟩)
      · exact .inr ⟨a :: before, b, after, rfl, List.forall_mem_cons.2 ⟨ha, hbefore⟩, hb⟩
    · exact .inr ⟨[], a, as, rfl, fun _ h => absurd h List.not_mem_nil, ha⟩

/-- The first element that is no string key of the map is null, and the map has the empty key. -/
def NullComesFirst (entries : Entries Value) (keys : List Value) : Prop :=
  ∃ before k after, keys = before ++ k :: after ∧
    (∀ earlier ∈ before, IsKey stringKey? entries earlier) ∧ k.kind = .null ∧ "" ∈ entries.keys

section
variable {entries : Entries Value} {p q : Position} {keys : List Value}

/-- Where null does not come first, the readings find the same first fault. -/
theorem not_isKey_key?_of_not_nullComesFirst (h : ¬ NullComesFirst entries keys)
    {before after : List Value} {k : Value} (hsplit : keys = before ++ k :: after)
    (hbefore : ∀ earlier ∈ before, IsKey stringKey? entries earlier)
    (hk : ¬ IsKey stringKey? entries k) : ¬ IsKey key? entries k := by
  intro hkey
  rcases isKey_key?_iff.1 hkey with hstring | ⟨hnull, hempty⟩
  · exact hk hstring
  · exact h ⟨before, k, after, hsplit, hbefore, hnull, hempty⟩

theorem selectsPart_stringKey?_of_not_nullComesFirst (h : ¬ NullComesFirst entries keys) :
    SelectsPart stringKey? ⟨.map entries, p⟩ entries keys
      ((⟨.map entries, p⟩ : Value).index ⟨.array keys, q⟩) := by
  have hlaw := selectsPart_index entries p q keys
  have hall : (∀ k ∈ keys, IsKey key? entries k) ↔ ∀ k ∈ keys, IsKey stringKey? entries k := by
    refine ⟨fun hkeys => ?_, fun hkeys k hk => isKey_key?_iff.2 (.inl (hkeys k hk))⟩
    rcases forall_or_exists_first (IsKey stringKey? entries) keys with hstrings | hfirst
    · exact hstrings
    · obtain ⟨before, k, after, hsplit, hbefore, hk⟩ := hfirst
      have hmem : k ∈ keys := by
        rw [hsplit]
        exact List.mem_append_right _ List.mem_cons_self
      exact absurd (hkeys k hmem) (not_isKey_key?_of_not_nullComesFirst h hsplit hbefore hk)
  refine ⟨hlaw.exists_ok_iff.trans hall, fun w hw => ?_, fun before k after hsplit hbefore hk => ?_⟩
  · obtain ⟨part, rfl, hsorted, hkeys, hbound⟩ := hlaw.part w hw
    have hstrings := hall.1 (hlaw.exists_ok_iff.1 ⟨_, hw⟩)
    refine ⟨part, rfl, hsorted, fun key => (hkeys key).trans ?_, hbound⟩
    refine exists_congr fun k => and_congr_right fun hk => ⟨fun hread => ?_, key?_of_stringKey?⟩
    -- all elements are strings, so both readings give the key
    obtain ⟨key', hread', _⟩ := hstrings k hk
    rw [key?_of_stringKey? hread'] at hread
    rw [hread', hread]
  · refine hlaw.fault before k after hsplit (fun earlier hearlier => ?_) ?_
    · exact isKey_key?_iff.2 (.inl (hbefore earlier hearlier))
    · exact not_isKey_key?_of_not_nullComesFirst h hsplit hbefore hk

theorem text_of_kind_eq_null {k : Value} (h : k.kind = .null) : k.text = null.text := by
  obtain ⟨p, rfl⟩ := exists_eq_of_kind_eq_null h
  rfl

/-- Where null comes first, it should be named by the fault, but no fault names it. -/
theorem not_selectsPart_stringKey?_of_nullComesFirst (h : NullComesFirst entries keys) :
    ¬ SelectsPart stringKey? ⟨.map entries, p⟩ entries keys
      ((⟨.map entries, p⟩ : Value).index ⟨.array keys, q⟩) := by
  intro hstrings
  obtain ⟨before, k, after, hsplit, hbefore, hnull, hempty⟩ := h
  have hlaw := selectsPart_index entries p q keys
  have hfault := hstrings.fault before k after hsplit hbefore (not_isKey_stringKey?_of_null hnull)
  rcases forall_or_exists_first (IsKey key? entries) keys with hall | hfirst
  · obtain ⟨w, hw⟩ := hlaw.exists_ok_iff.2 hall
    rw [hw] at hfault
    cases hfault
  · obtain ⟨before', k', after', hsplit', hbefore', hk'⟩ := hfirst
    have hfault' := hlaw.fault before' k' after' hsplit' hbefore' hk'
    have htext : k.text = k'.text := by
      have hfaults := Except.error.inj (hfault.symm.trans hfault')
      exact (Cause.index.inj (congrArg Fault.cause hfaults)).2
    have hnull' : k'.kind = .null :=
      kind_eq_null_of_text (htext.symm.trans (text_of_kind_eq_null hnull))
    exact hk' (isKey_key?_iff.2 (.inr ⟨hnull', hempty⟩))

end

/-- **A map indexed by an array of keys** gives the part with these keys, or names the first element
that is not a key, if null is read as the empty key.  It does so with strings alone as keys just if
null is not the first element that is no string key of a map with the empty key.  What the map gives
for a key is what it gives for the string as a single index, wherever that stands. -/
theorem selectsPart_index_and_stringKey?_iff (entries : Entries Value) (p q : Position)
    (keys : List Value) :
    let m : Value := ⟨.map entries, p⟩
    SelectsPart key? m entries keys (m.index ⟨.array keys, q⟩) ∧
      (SelectsPart stringKey? m entries keys (m.index ⟨.array keys, q⟩) ↔
        ¬ NullComesFirst entries keys) ∧
      ∀ key r, m.index ⟨.string key, r⟩ = m.get key := by
  intro m
  refine ⟨selectsPart_index entries p q keys, ⟨fun hstrings hnull => ?_, fun h => ?_⟩, ?_⟩
  · exact not_selectsPart_stringKey?_of_nullComesFirst hnull hstrings
  · exact selectsPart_stringKey?_of_not_nullComesFirst h
  · exact fun key r => rfl

/-- Null is no index of a map with the empty key, but selects the entry of that key as an element of
an array. -/
theorem not_selectsPart_stringKey?_null :
    let entries : Entries Value := [("", integer 1)]
    (map entries).index null = .error ((map entries).indexFault null) ∧
      (map entries).index (array [null]) = .ok (map entries) ∧
      ¬ SelectsPart stringKey? (map entries) entries [null]
        ((map entries).index (array [null])) := by
  intro entries
  refine ⟨rfl, rfl, fun hstrings => ?_⟩
  have hkeys := hstrings.exists_ok_iff.1 ⟨map entries, rfl⟩
  obtain ⟨key, hread, _⟩ := hkeys null List.mem_cons_self
  cases hread

end Value
end ExprLang
