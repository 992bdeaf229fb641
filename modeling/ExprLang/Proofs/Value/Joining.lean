import ExprLang.Proofs.Value.Elements
import ExprLang.Proofs.Value.Indexing
import ExprLang.Proofs.Value.Regrouping

/-!
# Joining collections

On two arrays, two maps or two strings `+` is not arithmetic: it appends, it merges, or it appends texts.
These are three pieces of code behind one operator, and which one runs is settled by both kinds.  Within each
of the three kinds `+` is a lawful operation (`add_collections`): it always has a result of that kind, it is
associative, and what is empty is its identity on either side.

* The laws are those of appending lists and texts and of merging tables.  That a merge is associative, and
  that merging into the empty table changes nothing, needs keys that increase; a map has such keys.
* Of arrays and strings, the elements are appended, and so `concatenation_of_elements?` reads what is at a
  place from the list of elements alone.  Items keep their positions, as they are elements with them.
* Of maps, the second wins (`Entries.lookup_merge`), and the value it wins with keeps its position, too.

What is joined stands nowhere itself.  That is the one thing in which a value joined to an empty one differs
from the value.
-/

namespace ExprLang

/-- The number is an index that means the place `i`, from the start. -/
def Number.IsIndex (x : Number) (i : Nat) : Prop := x.isFinite = true ∧ x.truncated = i

/-- An integer that is a number exactly is an index of itself. -/
theorem Number.isIndex_ofInt {i : Nat} (h : i ≤ exactBound) : (ofInt i).IsIndex i := by
  have hsmall : (i : Int).natAbs ≤ exactBound := h
  exact ⟨(level_ofInt_of_natAbs_le hsmall).1, truncated_ofInt hsmall⟩

/-- The kinds of which two values are joined by `+`. -/
def Kind.IsCollection (kind : Kind) : Prop := kind = .array ∨ kind = .map ∨ kind = .string

namespace Value
variable {a b c e v : Value}

/-! ## What joining is -/

section
variable {es fs : List Element}

/-- The ordered value `c` is `a` followed by `b`. -/
structure Concatenation (a b c : Value) (es fs : List Element) : Prop where
  elements_first : a.elements? = some es
  elements_second : b.elements? = some fs
  elements_joined : c.elements? = some (es ++ fs)
  length_first : a.length = .ok es.length
  length_second : b.length = .ok fs.length
  length_joined : c.length = .ok (es.length + fs.length)
  /-- A place within the first is read there. -/
  index_first : ∀ x i p, x.IsIndex i → i < es.length →
    ∃ w, a.index ⟨.number x, p⟩ = .ok w ∧ c.index ⟨.number x, p⟩ = .ok w
  /-- A place after the first is read in the second, further to the left. -/
  index_second : ∀ x y i p q, x.IsIndex (es.length + i) → y.IsIndex i → i < fs.length →
    ∃ w, b.index ⟨.number y, q⟩ = .ok w ∧ c.index ⟨.number x, p⟩ = .ok w
  /-- There are no other places. -/
  index_neither : ∀ x i p, x.IsIndex i → es.length + fs.length ≤ i →
    c.index ⟨.number x, p⟩ = .error (c.outOfBoundsFault ⟨.number x, p⟩)

/-- The map `c` has the entries of `a` and of `b`, and those of `b` where both have a key. -/
structure MapUnion (a b c : Value) (ks ls ms : List String) : Prop where
  keys_first : a.keys = .ok ks
  keys_second : b.keys = .ok ls
  keys_joined : c.keys = .ok ms
  increasing : ms.Pairwise (· < ·)
  mem_keys_iff : ∀ k, k ∈ ms ↔ k ∈ ks ∨ k ∈ ls
  index_second : ∀ k ∈ ls, ∀ q, ∃ w, b.index ⟨.string k, q⟩ = .ok w ∧ c.index ⟨.string k, q⟩ = .ok w
  index_first : ∀ k ∈ ks, k ∉ ls → ∀ q,
    ∃ w, a.index ⟨.string k, q⟩ = .ok w ∧ c.index ⟨.string k, q⟩ = .ok w
  index_neither : ∀ k, k ∉ ms → ∀ q, c.index ⟨.string k, q⟩ = .error (c.indexFault ⟨.string k, q⟩)

theorem index_of_isIndex (hv : v.elements? = some es) {x : Number} {i : Nat} {p : Position}
    (hx : x.IsIndex i) (hi : i < es.length) : v.index ⟨.number x, p⟩ = .ok es[i].value := by
  obtain ⟨hfinite, htruncated⟩ := hx
  have hplace : place? x.truncated es.length = some ⟨i, hi⟩ := by
    rw [htruncated, place?_eq_some_iff]
    exact (if_neg (by omega)).symm
  exact index_number_of_place hv hfinite hplace

theorem index_of_isIndex_of_le (hv : v.elements? = some es) {x : Number} {i : Nat} {p : Position}
    (hx : x.IsIndex i) (hi : es.length ≤ i) :
    v.index ⟨.number x, p⟩ = .error (v.outOfBoundsFault ⟨.number x, p⟩) := by
  obtain ⟨hfinite, htruncated⟩ := hx
  have hplace : place? x.truncated es.length = none := by
    rw [htruncated, place?_eq_none_iff]
    omega
  exact index_number_of_no_place hv hfinite hplace

/-- **Appended elements are read in the first or in the second**, whatever the values are made of. -/
theorem concatenation_of_elements? (ha : a.elements? = some es) (hb : b.elements? = some fs)
    (hc : c.elements? = some (es ++ fs)) : Concatenation a b c es fs where
  elements_first := ha
  elements_second := hb
  elements_joined := hc
  length_first := length_of_elements? ha
  length_second := length_of_elements? hb
  length_joined := by rw [length_of_elements? hc, List.length_append]
  index_first := by
    intro x i p hx hi
    have hlt : i < (es ++ fs).length := by
      rw [List.length_append]
      exact Nat.lt_add_right _ hi
    refine ⟨es[i].value, index_of_isIndex ha hx hi, ?_⟩
    rw [index_of_isIndex hc hx hlt, List.getElem_append_left hi]
  index_second := by
    intro x y i p q hx hy hi
    have hlt : es.length + i < (es ++ fs).length := by
      rw [List.length_append]
      exact Nat.add_lt_add_left hi _
    refine ⟨fs[i].value, index_of_isIndex hb hy hi, ?_⟩
    rw [index_of_isIndex hc hx hlt, List.getElem_append_right (Nat.le_add_right _ _)]
    simp only [Nat.add_sub_cancel_left]
  index_neither := by
    intro x i p hx hi
    refine index_of_isIndex_of_le hc hx ?_
    rwa [List.length_append]

end

section
variable {first second : Entries Value} {p q r : Position}

/-- **A merged map is read in the second map first**, and then in the first. -/
theorem mapUnion_merge (hfirst : first.Sorted) (hsecond : second.Sorted) :
    MapUnion ⟨.map first, p⟩ ⟨.map second, q⟩ ⟨.map (Entries.merge first second), r⟩ first.keys
      second.keys (Entries.merge first second).keys where
  keys_first := rfl
  keys_second := rfl
  keys_joined := rfl
  increasing := Entries.sorted_merge hfirst
  mem_keys_iff k := Entries.mem_keys_merge
  index_second := by
    intro k hk s
    obtain ⟨w, hw⟩ := Entries.mem_keys_iff.1 hk
    have hmerge : Entries.lookup k (Entries.merge first second) = some w := by
      rw [Entries.lookup_merge hsecond, hw, Option.some_or]
    exact ⟨w, index_map_of_lookup hw, index_map_of_lookup hmerge⟩
  index_first := by
    intro k hk hnot s
    obtain ⟨w, hw⟩ := Entries.mem_keys_iff.1 hk
    have hnone : Entries.lookup k second = none := Entries.lookup_eq_none_of_not_mem_keys hnot
    have hmerge : Entries.lookup k (Entries.merge first second) = some w := by
      rw [Entries.lookup_merge hsecond, hnone, Option.none_or, hw]
    exact ⟨w, index_map_of_lookup hw, index_map_of_lookup hmerge⟩
  index_neither := fun _ hk _ =>
    index_map_of_lookup_eq_none (Entries.lookup_eq_none_of_not_mem_keys hk)

end

/-! ## Collections by kind -/

theorem exists_eq_of_kind_eq_array (h : v.kind = .array) : ∃ items p, v = ⟨.array items, p⟩ := by
  obtain ⟨payload, p⟩ := v
  cases payload with
  | array items => exact ⟨items, p, rfl⟩
  | _ => cases h

theorem exists_eq_of_kind_eq_map (h : v.kind = .map) : ∃ entries p, v = ⟨.map entries, p⟩ := by
  obtain ⟨payload, p⟩ := v
  cases payload with
  | map entries => exact ⟨entries, p, rfl⟩
  | _ => cases h

theorem exists_eq_of_kind_eq_string (h : v.kind = .string) : ∃ s p, v = ⟨.string s, p⟩ := by
  obtain ⟨payload, p⟩ := v
  cases payload with
  | string s => exact ⟨s, p, rfl⟩
  | _ => cases h

/-! ## The laws -/

/-- What is empty and of a kind of collections. -/
theorem exists_empty {kind : Kind} (h : kind.IsCollection) :
    ∃ e : Value, e.kind = kind ∧ e.SortedKeys ∧ e.length = .ok 0 := by
  rcases h with rfl | rfl | rfl
  · exact ⟨array [], rfl, nofun, rfl⟩
  · exact ⟨map (Entries.ofList []), rfl, sortedKeys_map_ofList [], rfl⟩
  · exact ⟨string "", rfl, nofun, rfl⟩

theorem add_associative {kind : Kind} (h : kind.IsCollection) (ha : a.kind = kind) (hb : b.kind = kind)
    (hc : c.kind = kind) (hka : a.SortedKeys) (hkb : b.SortedKeys) (hkc : c.SortedKeys) :
    ∃ abc, (b.add c >>= a.add) = .ok abc ∧ (a.add b >>= fun ab => ab.add c) = .ok abc := by
  rcases h with rfl | rfl | rfl
  · obtain ⟨as, p, rfl⟩ := exists_eq_of_kind_eq_array ha
    obtain ⟨bs, q, rfl⟩ := exists_eq_of_kind_eq_array hb
    obtain ⟨cs, r, rfl⟩ := exists_eq_of_kind_eq_array hc
    refine ⟨array (as ++ (bs ++ cs)), rfl, ?_⟩
    rw [← List.append_assoc]
    rfl
  · obtain ⟨as, p, rfl⟩ := exists_eq_of_kind_eq_map ha
    obtain ⟨bs, q, rfl⟩ := exists_eq_of_kind_eq_map hb
    obtain ⟨cs, r, rfl⟩ := exists_eq_of_kind_eq_map hc
    refine ⟨map (Entries.merge as (Entries.merge bs cs)), rfl, ?_⟩
    rw [Entries.merge_assoc (hka as rfl) (hkb bs rfl) (hkc cs rfl)]
    rfl
  · obtain ⟨s, p, rfl⟩ := exists_eq_of_kind_eq_string ha
    obtain ⟨t, q, rfl⟩ := exists_eq_of_kind_eq_string hb
    obtain ⟨u, r, rfl⟩ := exists_eq_of_kind_eq_string hc
    refine ⟨string (s ++ (t ++ u)), rfl, ?_⟩
    rw [← String.append_assoc]
    rfl

/-- **What is empty is an identity**, on either side. -/
theorem add_of_length_eq_zero {kind : Kind} (h : kind.IsCollection) (ha : a.kind = kind) (hka : a.SortedKeys)
    (he : e.kind = kind) (hlength : e.length = .ok 0) :
    a.add e = .ok (a.withPosition .unknown) ∧ e.add a = .ok (a.withPosition .unknown) := by
  rcases h with rfl | rfl | rfl
  · obtain ⟨as, p, rfl⟩ := exists_eq_of_kind_eq_array ha
    obtain ⟨es, q, rfl⟩ := exists_eq_of_kind_eq_array he
    obtain rfl : es = [] := List.eq_nil_of_length_eq_zero (Except.ok.inj hlength)
    refine ⟨?_, rfl⟩
    show Except.ok (array (as ++ [])) = _
    rw [List.append_nil]
    rfl
  · obtain ⟨as, p, rfl⟩ := exists_eq_of_kind_eq_map ha
    obtain ⟨es, q, rfl⟩ := exists_eq_of_kind_eq_map he
    obtain rfl : es = [] := List.eq_nil_of_length_eq_zero (Except.ok.inj hlength)
    refine ⟨rfl, ?_⟩
    show Except.ok (map (Entries.merge [] as)) = _
    rw [Entries.nil_merge (hka as rfl)]
    rfl
  · obtain ⟨s, p, rfl⟩ := exists_eq_of_kind_eq_string ha
    obtain ⟨t, q, rfl⟩ := exists_eq_of_kind_eq_string he
    have hnil : t.toList = [] := List.eq_nil_of_length_eq_zero (Except.ok.inj hlength)
    obtain rfl : t = "" := String.toList_eq_nil_iff.1 hnil
    constructor
    · show Except.ok (string (s ++ "")) = _
      rw [String.append_empty]
      rfl
    · show Except.ok (string ("" ++ s)) = _
      rw [String.empty_append]
      rfl

/-- The sum of two collections of one kind is the first followed by the second, or the union of the
two. -/
theorem exists_add {kind : Kind} (h : kind.IsCollection) (ha : a.kind = kind) (hb : b.kind = kind)
    (hka : a.SortedKeys) (hkb : b.SortedKeys) :
    ∃ ab, a.add b = .ok ab ∧ ab.kind = kind ∧ ab.SortedKeys ∧
      (kind ≠ .map → ∃ es fs, Concatenation a b ab es fs) ∧
      (kind = .map → ∃ ks ls ms, MapUnion a b ab ks ls ms) := by
  rcases h with rfl | rfl | rfl
  · obtain ⟨as, p, rfl⟩ := exists_eq_of_kind_eq_array ha
    obtain ⟨bs, q, rfl⟩ := exists_eq_of_kind_eq_array hb
    have helements : (array (as ++ bs)).elements? = some (as.map .item ++ bs.map .item) :=
      congrArg some List.map_append
    exact ⟨array (as ++ bs), rfl, rfl, nofun,
      fun _ => ⟨_, _, concatenation_of_elements? rfl rfl helements⟩, nofun⟩
  · obtain ⟨as, p, rfl⟩ := exists_eq_of_kind_eq_map ha
    obtain ⟨bs, q, rfl⟩ := exists_eq_of_kind_eq_map hb
    have hsorted : (map (Entries.merge as bs)).SortedKeys := by
      intro entries hentries
      rw [← Payload.map.inj hentries]
      exact Entries.sorted_merge (hka as rfl)
    exact ⟨map (Entries.merge as bs), rfl, rfl, hsorted, fun hne => absurd rfl hne,
      fun _ => ⟨_, _, _, mapUnion_merge (hka as rfl) (hkb bs rfl)⟩⟩
  · obtain ⟨s, p, rfl⟩ := exists_eq_of_kind_eq_string ha
    obtain ⟨t, q, rfl⟩ := exists_eq_of_kind_eq_string hb
    have helements : (string (s ++ t)).elements? =
        some (s.toList.map .character ++ t.toList.map .character) := by
      rw [← List.map_append, ← String.toList_append]
      rfl
    exact ⟨string (s ++ t), rfl, rfl, nofun,
      fun _ => ⟨_, _, concatenation_of_elements? rfl rfl helements⟩, nofun⟩

/-- **`+` is a lawful operation on the collections of one kind.**  It has a result of that kind, which is the
first followed by the second, or the union of the two maps; it is associative; and what is empty, which there
is, is its identity on either side, except that the result stands nowhere. -/
theorem add_collections {kind : Kind} (h : kind.IsCollection) (ha : a.kind = kind) (hb : b.kind = kind)
    (hc : c.kind = kind) (hka : a.SortedKeys) (hkb : b.SortedKeys) (hkc : c.SortedKeys) :
    (∃ ab, a.add b = .ok ab ∧ ab.kind = kind ∧ ab.SortedKeys ∧
      (kind ≠ .map → ∃ es fs, Concatenation a b ab es fs) ∧
      (kind = .map → ∃ ks ls ms, MapUnion a b ab ks ls ms)) ∧
    (∃ abc, (b.add c >>= a.add) = .ok abc ∧ (a.add b >>= fun ab => ab.add c) = .ok abc) ∧
    (∃ e : Value, e.kind = kind ∧ e.SortedKeys ∧ e.length = .ok 0) ∧
    ∀ e : Value, e.kind = kind → e.length = .ok 0 →
      a.add e = .ok (a.withPosition .unknown) ∧ e.add a = .ok (a.withPosition .unknown) :=
  ⟨exists_add h ha hb hka hkb, add_associative h ha hb hc hka hkb hkc, exists_empty h,
    fun _ he hlength => add_of_length_eq_zero h ha hka he hlength⟩

/-- Two maps with a common key, and two texts of characters that are more than a byte each. -/
theorem add_collections_of_common_key_and_wide_characters :
    let first := (integer 1).withPosition ⟨1, 5⟩
    let second := (integer 2).withPosition ⟨2, 9⟩
    let a := map [("x", first), ("y", first)]
    let b := map [("x", second)]
    let s := string "hé"
    let t := string "λx"
    (Kind.map.IsCollection ∧ a.kind = .map ∧ b.kind = .map ∧ a.SortedKeys ∧ b.SortedKeys) ∧
      (∃ ab, a.add b = .ok ab ∧ ab.get "x" = .ok second ∧ ab.get "y" = .ok first) ∧
      (Kind.string.IsCollection ∧ s.kind = .string ∧ t.kind = .string ∧ s.SortedKeys ∧ t.SortedKeys) ∧
      ∃ st, s.add t = .ok st ∧ st.length = .ok 4 ∧ st.element 1 = .ok (string "é") ∧
        st.element 2 = .ok (string "λ") := by
  intro first second a b s t
  have hmap : Kind.map.IsCollection := .inr (.inl rfl)
  have hstring : Kind.string.IsCollection := .inr (.inr rfl)
  have ha : a.SortedKeys := by
    rintro entries ⟨⟩
    exact List.pairwise_pair.2 (by decide)
  have hb : b.SortedKeys := by
    rintro entries ⟨⟩
    exact List.pairwise_singleton _ _
  have hs : s.SortedKeys := nofun
  have ht : t.SortedKeys := nofun
  have hbkind : b.kind = .map := rfl
  have htkind : t.kind = .string := rfl
  obtain ⟨⟨ab, hab, -, -, -, hunion⟩, -⟩ := add_collections hmap rfl hbkind hbkind ha hb hb
  obtain ⟨⟨st, hst, -, -, hfollowed, -⟩, -⟩ := add_collections hstring rfl htkind htkind hs ht ht
  refine ⟨⟨hmap, rfl, hbkind, ha, hb⟩, ⟨ab, hab, ?_⟩, ⟨hstring, rfl, htkind, hs, ht⟩, st, hst, ?_⟩
  · obtain ⟨ks, ls, ms, h⟩ := hunion rfl
    obtain rfl : ["x", "y"] = ks := Except.ok.inj h.keys_first
    obtain rfl : ["x"] = ls := Except.ok.inj h.keys_second
    obtain ⟨w, hw, hx⟩ := h.index_second "x" (by decide) .unknown
    obtain rfl : second = w := Except.ok.inj hw
    obtain ⟨w, hw, hy⟩ := h.index_first "y" (by decide) (by decide) .unknown
    obtain rfl : first = w := Except.ok.inj hw
    exact ⟨hx, hy⟩
  · obtain ⟨es, fs, h⟩ := hfollowed nofun
    obtain rfl : [.character 'h', .character 'é'] = es := Option.some.inj h.elements_first
    obtain rfl : [.character 'λ', .character 'x'] = fs := Option.some.inj h.elements_second
    have hindex : ∀ i : Nat, i ≤ 2 → (Number.ofInt i).IsIndex i := fun i hi =>
      Number.isIndex_ofInt (Nat.le_trans hi (by decide))
    have hfirst : s.index (integer 1) = .ok (string "é") :=
      index_of_isIndex h.elements_first (hindex 1 (by decide)) (by decide)
    have hsecond : t.index (integer 0) = .ok (string "λ") :=
      index_of_isIndex h.elements_second (hindex 0 (by decide)) (by decide)
    obtain ⟨w, hw, hone⟩ := h.index_first _ 1 .unknown (hindex 1 (by decide)) (by decide)
    obtain rfl : string "é" = w := Except.ok.inj (hfirst.symm.trans hw)
    obtain ⟨w, hw, htwo⟩ := h.index_second _ _ 0 .unknown .unknown (hindex 2 (by decide))
      (hindex 0 (by decide)) (by decide)
    obtain rfl : string "λ" = w := Except.ok.inj (hsecond.symm.trans hw)
    exact ⟨h.length_joined, hone, htwo⟩

end Value
end ExprLang
