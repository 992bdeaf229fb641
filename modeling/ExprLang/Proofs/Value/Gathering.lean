import ExprLang.Proofs.Value.Elements

/-!
# Gathering

A range or an array as an index gathers: each of its elements selects one element of the indexed value, and
these make up a value of the same kind.  `Gathers` says what that comes to without looking at how places are
found, by what each selector gives on its own.  For an element of an array that is what it gives as an index,
if it is a number (`pick`).  For an integer of a range it is what `element` gives, which goes through the
number nearest to the integer.

So there are three ways to a place, and they have to meet (`gathers_index`).

* An integer of a range means its place as it stands, and a number the place of its integer part.  The number
  nearest to an integer means the same place as the integer, or none either, since a value with fewer than
  `2 ^ 53` elements has no place near the integers that are rounded (`place?_truncated`).
* A range and an array differ in the step that they take for each selector, and in nothing else
  (`gathers_of_step`).

The faults show one difference.  An integer of a range is shown as it stands, while on its own it would be
shown as the nearest number.
-/

namespace ExprLang
namespace Value

/-- What an element of an array of indices gives on its own.  Only numbers select. -/
def pick (v i : Value) : Outcome Value :=
  if i.kind = .number then v.index i else .error (v.indexFault i)

/-- The fault of an element of an array of indices that selects nothing. -/
def itemFault (v i : Value) : Fault :=
  match i.payload with
  | .number x => if x.isFinite then v.outOfBoundsFault i else v.indexFault i
  | _ => v.indexFault i

/-- The fault of an integer that selects nothing. -/
def integerFault (v : Value) (n : Int) : Fault :=
  { cause := .indexOutOfBounds v.text (String.ofList (integerChars n)) }

/-- What several selectors give at once, by what each of them gives on its own. -/
structure Gathers {σ : Type} (v : Value) (es : List Element) (single : σ → Outcome Value)
    (fault : σ → Fault) (selectors : List σ) (o : Outcome Value) : Prop where
  /-- There is a value just if each selector gives one. -/
  exists_ok_iff : (∃ w, o = .ok w) ↔ ∀ s ∈ selectors, ∃ u, single s = .ok u
  /-- It is of the same kind and has an element for each selector, namely the one that the selector gives. -/
  elements : ∀ w, o = .ok w → w.kind = v.kind ∧ w.length = .ok selectors.length ∧
    ∃ ws, w.elements? = some ws ∧
      ∀ (j : Nat) s, selectors[j]? = some s → ∃ e ∈ es, ws[j]? = some e ∧ single s = .ok e.value
  /-- If there is none, the first selector that gives nothing is at fault. -/
  fault : ∀ before s after, selectors = before ++ s :: after →
    (∀ earlier ∈ before, ∃ u, single earlier = .ok u) → (∀ u, single s ≠ .ok u) →
    o = .error (fault s)

variable {v : Value} {es : List Element}

/-! ## Selections of several places -/

section
variable {σ : Type} {step : σ → Outcome (Fin es.length)} {selectors : List σ} {i : Value}

theorem index_of_mapM_eq_ok (hv : v.elements? = some es)
    (hselect : v.select i es.length = Except.map .many (selectors.mapM step))
    {places : List (Fin es.length)} (h : selectors.mapM step = .ok places) :
    ∃ w, v.index i = .ok w ∧ w.kind = v.kind ∧ w.elements? = some (places.map es.get) := by
  have hreads := index_reads hv i
  rw [hselect, h] at hreads
  exact hreads

theorem index_of_mapM_eq_error (hv : v.elements? = some es)
    (hselect : v.select i es.length = Except.map .many (selectors.mapM step))
    {f : Fault} (h : selectors.mapM step = .error f) : v.index i = .error f := by
  have hreads := index_reads hv i
  rw [hselect, h] at hreads
  exact hreads

theorem exists_index_iff (hv : v.elements? = some es)
    (hselect : v.select i es.length = Except.map .many (selectors.mapM step)) :
    (∃ w, v.index i = .ok w) ↔ ∃ places, selectors.mapM step = .ok places := by
  cases h : selectors.mapM step with
  | ok places =>
    obtain ⟨w, hw, -⟩ := index_of_mapM_eq_ok hv hselect h
    exact iff_of_true ⟨w, hw⟩ ⟨places, rfl⟩
  | error f =>
    rw [index_of_mapM_eq_error hv hselect h]
    exact iff_of_false (Outcome.not_exists_eq_ok f) (Outcome.not_exists_eq_ok f)

/-- **One step for each selector gathers**, if the step finds the place of what the selector gives on its
own, and has the fault that is given if the selector gives nothing. -/
theorem gathers_of_step {single : σ → Outcome Value} {fault : σ → Fault}
    (hv : v.elements? = some es)
    (hselect : v.select i es.length = Except.map .many (selectors.mapM step))
    (hplace : ∀ s place, step s = .ok place → single s = .ok (es.get place).value)
    (hfault : ∀ s f, step s = .error f → f = fault s ∧ ∀ u, single s ≠ .ok u) :
    Gathers v es single fault selectors (v.index i) := by
  have hstep : ∀ s, (∃ place, step s = .ok place) ↔ ∃ u, single s = .ok u := by
    intro s
    cases h : step s with
    | ok place => exact iff_of_true ⟨place, rfl⟩ ⟨_, hplace s place h⟩
    | error f =>
      exact iff_of_false (Outcome.not_exists_eq_ok f) fun ⟨u, hu⟩ => (hfault s f h).2 u hu
  refine ⟨?_, ?_, ?_⟩
  · rw [exists_index_iff hv hselect, Outcome.exists_mapM_eq_ok_iff]
    exact forall₂_congr fun s _ => hstep s
  · intro w hw
    obtain ⟨places, h⟩ := (exists_index_iff hv hselect).1 ⟨w, hw⟩
    obtain ⟨w', hw', hkind, helements⟩ := index_of_mapM_eq_ok hv hselect h
    obtain rfl : w = w' := Except.ok.inj (hw.symm.trans hw')
    refine ⟨hkind, ?_, places.map es.get, helements, fun j s hj => ?_⟩
    · rw [length_of_elements? helements, List.length_map, Outcome.length_of_mapM_eq_ok h]
    · obtain ⟨place, hplaces, hs⟩ := Outcome.exists_getElem?_of_mapM_eq_ok h hj
      refine ⟨es.get place, List.get_mem es place, ?_, hplace s place hs⟩
      rw [List.getElem?_map, hplaces, Option.map_some]
  · intro before s after hsplit hbefore hs
    cases h : step s with
    | ok place => exact absurd (hplace s place h) (hs _)
    | error f =>
      obtain rfl := (hfault s f h).1
      have hearlier : ∀ earlier ∈ before, ∃ place, step earlier = .ok place :=
        fun earlier hmem => (hstep earlier).2 (hbefore earlier hmem)
      refine index_of_mapM_eq_error hv hselect (Outcome.mapM_eq_error_iff.2 ?_)
      exact ⟨before, s, after, hsplit, hearlier, h⟩

end

/-! ## Integers as selectors -/

/-- **The number nearest to an integer means the place that the integer means**, if there is one, in a value
that is not too long. -/
theorem place?_truncated {x : Number} {n : Int} {length : Nat} (hx : x.IsNearest n)
    (h : length < Number.exactBound) : place? x.truncated length = place? n length := by
  by_cases hn : -(length : Int) ≤ n ∧ n < length
  · obtain ⟨habove, hbelow⟩ := hx.truncated_mono (b := n) (by omega)
    have htruncated : x.truncated = n := Int.le_antisymm (hbelow (Int.le_refl n)) (habove (Int.le_refl n))
    rw [htruncated]
  · -- `n` is not between the two integers that enclose all places, and stays on its side of them
    obtain ⟨habove, -⟩ := hx.truncated_mono (b := length) (by omega)
    obtain ⟨-, hbelow⟩ := hx.truncated_mono (b := -(length : Int) - 1) (by omega)
    have hnone : place? n length = none := place?_eq_none_iff.2 hn
    rw [hnone, place?_eq_none_iff]
    omega

theorem element_of_place (hv : v.elements? = some es) (hlength : es.length < Number.exactBound)
    {n : Int} {place : Fin es.length} (h : place? n es.length = some place) :
    v.element n = .ok (es.get place).value := by
  have hn := exists_place?_iff.1 ⟨place, h⟩
  have hsmall : n.natAbs ≤ Number.exactBound := by omega
  have hfinite : (Number.ofInt n).isFinite = true := (Number.level_ofInt_of_natAbs_le hsmall).1
  refine index_number_of_place hv hfinite ?_
  rw [Number.truncated_ofInt hsmall, h]

theorem element_ne_ok (hv : v.elements? = some es) (hlength : es.length < Number.exactBound)
    {n : Int} (h : place? n es.length = none) (u : Value) : v.element n ≠ .ok u := by
  intro hu
  cases hfinite : (Number.ofInt n).isFinite with
  | false =>
    have hfault := index_number_of_not_finite (p := .unknown) hv hfinite
    exact nomatch hfault.symm.trans hu
  | true =>
    have hplace := (place?_truncated (Number.isNearest_ofInt hfinite) hlength).trans h
    have hfault := index_number_of_no_place (p := .unknown) hv hfinite hplace
    exact nomatch hfault.symm.trans hu

theorem gathers_range (hv : v.elements? = some es) (hlength : es.length < Number.exactBound)
    (integers : List Int) (p : Position) :
    Gathers v es v.element v.integerFault integers (v.index ⟨.range integers, p⟩) := by
  have hselect : v.select ⟨.range integers, p⟩ es.length =
      Except.map .many (integers.mapM (v.resolveInteger es.length)) := rfl
  refine gathers_of_step hv hselect ?_ ?_
  · intro n place h
    rw [resolveInteger] at h
    split at h
    · rename_i place' hplace
      obtain rfl := Except.ok.inj h
      exact element_of_place hv hlength hplace
    · cases h
  · intro n f h
    rw [resolveInteger] at h
    split at h
    · cases h
    · rename_i hplace
      exact ⟨(Except.error.inj h).symm, element_ne_ok hv hlength hplace⟩

/-! ## Values as selectors -/

/-- A number selects as it does on its own. -/
theorem pick_number (x : Number) (p : Position) :
    v.pick ⟨.number x, p⟩ = v.index ⟨.number x, p⟩ := if_pos rfl

/-- **An element of an array of indices gives its place on its own**, or it is at fault by its kind. -/
theorem pick_eq_of_resolveItem (hv : v.elements? = some es) (i : Value) :
    v.pick i = Except.map (fun place => (es.get place).value) (v.resolveItem es.length i) := by
  obtain ⟨payload, p⟩ := i
  cases payload with
  | number x =>
    rw [pick_number]
    show _ = Except.map _ (v.resolve x ⟨.number x, p⟩ es.length)
    rw [resolve]
    cases hfinite : x.isFinite with
    | false => exact index_number_of_not_finite hv hfinite
    | true =>
      cases hplace : place? x.truncated es.length with
      | some place => exact index_number_of_place hv hfinite hplace
      | none => exact index_number_of_no_place hv hfinite hplace
  | _ => rfl

theorem eq_itemFault_of_resolveItem {length : Nat} {i : Value} {f : Fault}
    (h : v.resolveItem length i = .error f) : f = v.itemFault i := by
  obtain ⟨payload, p⟩ := i
  cases payload with
  | number x =>
    have h : v.resolve x ⟨.number x, p⟩ length = .error f := h
    show f = if x.isFinite then v.outOfBoundsFault ⟨.number x, p⟩ else v.indexFault ⟨.number x, p⟩
    rw [resolve] at h
    split at h
    · rename_i hfinite
      rw [if_pos hfinite]
      split at h
      · cases h
      · exact (Except.error.inj h).symm
    · rename_i hfinite
      rw [if_neg hfinite]
      exact (Except.error.inj h).symm
  | _ => exact (Except.error.inj h).symm

theorem eq_itemFault_of_pick (hv : v.elements? = some es) {i : Value} {f : Fault}
    (h : v.pick i = .error f) : f = v.itemFault i := by
  rw [pick_eq_of_resolveItem hv] at h
  cases hplace : v.resolveItem es.length i with
  | ok place =>
    rw [hplace] at h
    cases h
  | error g =>
    rw [hplace] at h
    obtain rfl : g = f := Except.error.inj h
    exact eq_itemFault_of_resolveItem hplace

theorem gathers_array (hv : v.elements? = some es) (items : List Value) (p : Position) :
    Gathers v es v.pick v.itemFault items (v.index ⟨.array items, p⟩) := by
  have hselect : v.select ⟨.array items, p⟩ es.length =
      Except.map .many (items.mapM (v.resolveItem es.length)) := rfl
  refine gathers_of_step hv hselect ?_ ?_
  · intro i place h
    rw [pick_eq_of_resolveItem hv, h]
    rfl
  · intro i f h
    refine ⟨eq_itemFault_of_resolveItem h, fun u hu => ?_⟩
    rw [pick_eq_of_resolveItem hv, h] at hu
    cases hu

/-- **Gathering is single indexing, repeated.**  A range gathers what its integers give as indices, and an
array what its elements give, if these are numbers; the first one that gives nothing is at fault.  On its own
an element of an array has the same fault, and so has an integer of 64 bits, but for the text of the number
nearest to it. -/
theorem gathers_index (hv : v.elements? = some es) (hlength : es.length < Number.exactBound)
    (p : Position) :
    (∀ integers : List Int,
      Gathers v es v.element v.integerFault integers (v.index ⟨.range integers, p⟩)) ∧
    (∀ items : List Value, Gathers v es v.pick v.itemFault items (v.index ⟨.array items, p⟩)) ∧
    (∀ i f, v.pick i = .error f → f = v.itemFault i) ∧
    ∀ n : Int, leastWord ≤ n → n ≤ greatestWord → ∀ f, v.element n = .error f →
      f = v.outOfBoundsFault (integer n) := by
  refine ⟨fun integers => gathers_range hv hlength integers p,
    fun items => gathers_array hv items p, fun i f => eq_itemFault_of_pick hv, ?_⟩
  intro n hleast hgreatest f h
  have hfinite : (Number.ofInt n).isFinite = true := Number.isFinite_ofInt hleast hgreatest
  cases hplace : place? (Number.ofInt n).truncated es.length with
  | some place =>
    have hindex := index_number_of_place (p := .unknown) hv hfinite hplace
    exact nomatch hindex.symm.trans h
  | none =>
    have hindex := index_number_of_no_place (p := .unknown) hv hfinite hplace
    exact Except.error.inj (h.symm.trans hindex)

/-- A range of two integers, gathered from the end and twice from the start, and by selectors of which the
second and the third give nothing. -/
theorem gathers_index_twice_and_null :
    let v := range [9007199254740993, -7]
    let es := [Element.integer 9007199254740993, .integer (-7)]
    (v.elements? = some es ∧ es.length < Number.exactBound) ∧
      (∃ w, v.index (range [-1, 0, 0]) = .ok w ∧ w.kind = .range ∧ w.length = .ok 3) ∧
      v.index (array [integer 1, null, integer 2]) = .error (v.indexFault null) ∧
      (v.pick null = .error (v.indexFault null) ∧ v.indexFault null = v.itemFault null) ∧
      ∃ f, (leastWord ≤ 2 ∧ 2 ≤ greatestWord ∧ v.element 2 = .error f) ∧
        f = v.outOfBoundsFault (integer 2) := by
  intro v es
  have hv : v.elements? = some es := rfl
  have hlength : es.length < Number.exactBound := by decide
  obtain ⟨hrange, harray, hitem, hinteger⟩ := gathers_index hv hlength .unknown
  have hlast : ∃ u, v.element (-1) = .ok u := Outcome.exists_eq_ok_iff.2 (by decide +kernel)
  have hfirst : ∃ u, v.element 0 = .ok u := Outcome.exists_eq_ok_iff.2 (by decide +kernel)
  have hnext : ∃ u, v.pick (integer 1) = .ok u := Outcome.exists_eq_ok_iff.2 (by decide +kernel)
  have hnull : v.pick null = .error (v.indexFault null) := rfl
  have hgathered : ∃ w, v.index (range [-1, 0, 0]) = .ok w :=
    (hrange [-1, 0, 0]).exists_ok_iff.2 (by simp [hlast, hfirst])
  obtain ⟨w, hw⟩ := hgathered
  obtain ⟨hkind, hlen, _⟩ := (hrange [-1, 0, 0]).elements w hw
  have hfault : v.index (array [integer 1, null, integer 2]) = .error (v.indexFault null) := by
    refine (harray _).fault [integer 1] null [integer 2] rfl ?_ ?_
    · exact List.forall_mem_singleton.2 hnext
    · intro u hu
      cases hu
  obtain ⟨f, hf⟩ : ∃ f, v.element 2 = .error f := by
    cases h : v.element 2 with
    | error f => exact ⟨f, rfl⟩
    | ok u =>
      have hnone : (v.element 2).toOption.isSome = false := by decide +kernel
      rw [h] at hnone
      cases hnone
  have hword : leastWord ≤ 2 ∧ 2 ≤ greatestWord := by decide
  exact ⟨⟨hv, hlength⟩, ⟨w, hw, hkind, hlen⟩, hfault, ⟨hnull, hitem null _ hnull⟩,
    f, ⟨hword.1, hword.2, hf⟩, hinteger 2 hword.1 hword.2 f hf⟩

end Value
end ExprLang
