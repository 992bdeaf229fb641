import ExprLang.Proofs.Number.Integers
import ExprLang.Proofs.Value.Bare

/-!
# Elements of ordered values

Arrays, ranges and strings are made of elements.  Each of the three is indexed by code of its own, and what
differs is only what an element is and what several of them make up.  `elements?` takes an ordered value
apart, so that indexing can be said once for all three: `index_reads` says that what `select` chooses among
the places of a value is read from its elements.

A single index is a number.  It means the place `t` with the integer part `t` of the number, or the place
that is `t` before the end if `t` is negative, and it means no place if that is not within the value
(`index_number_iff_and_element`).

* Clamping the integer part to 64 bits loses no place, as no value is that long
  (`place?_clampWord`).
* `place?` adds the length to a negative index, in unbounded integers.  `checkedPlace?` does the same with
  sums that have to be 64-bit integers, and it gives the same (`checkedPlace?_eq`).
-/

namespace ExprLang

/-- An element of an ordered value: of an array, of a range, or of a string. -/
inductive Element where
  | item (v : Value)
  | integer (n : Int)
  | character (c : Char)

/-- An element as a value.  An item stays where it stands; an integer becomes a number and a character a
string, which stand nowhere. -/
def Element.value : Element → Value
  | item v => v
  | integer n => .integer n
  | character c => .string (String.ofList [c])

namespace Value

/-- The elements of an array, a range or a string, in order. -/
def elements? (v : Value) : Option (List Element) :=
  match v.payload with
  | .array items => some (items.map .item)
  | .range integers => some (integers.map .integer)
  | .string s => some (s.toList.map .character)
  | _ => none

/-- What has elements is an array, a range or a string. -/
theorem eq_of_elements? {v : Value} {es : List Element} (h : v.elements? = some es) :
    (∃ items p, v = ⟨.array items, p⟩ ∧ es = items.map .item) ∨
      (∃ integers p, v = ⟨.range integers, p⟩ ∧ es = integers.map .integer) ∨
      ∃ s p, v = ⟨.string s, p⟩ ∧ es = s.toList.map .character := by
  obtain ⟨payload, p⟩ := v
  cases payload with
  | array items => exact .inl ⟨items, p, rfl, (Option.some.inj h).symm⟩
  | range integers => exact .inr (.inl ⟨integers, p, rfl, (Option.some.inj h).symm⟩)
  | string s => exact .inr (.inr ⟨s, p, rfl, (Option.some.inj h).symm⟩)
  | _ => cases h

theorem length_of_elements? {v : Value} {es : List Element} (h : v.elements? = some es) :
    v.length = .ok es.length := by
  rcases eq_of_elements? h with ⟨items, p, rfl, rfl⟩ | ⟨integers, p, rfl, rfl⟩ | ⟨s, p, rfl, rfl⟩
  · rw [List.length_map]
    rfl
  · rw [List.length_map]
    rfl
  · rw [List.length_map]
    rfl

/-! ## Reading a selection -/

/-- What a selection reads from the elements of a value of the given kind: one element as a value, or a
value of that kind with the elements selected. -/
def Selection.Reads (kind : Kind) (es : List Element) : Selection es.length → Value → Prop
  | .single place, w => w = (es.get place).value
  | .many places, w => w.kind = kind ∧ w.elements? = some (places.map es.get)

/-- An outcome is what a selection reads, if there is one, and else its fault. -/
def ReadsSelection (kind : Kind) (es : List Element) (o : Outcome Value) :
    Outcome (Selection es.length) → Prop
  | .ok selection => ∃ w, o = .ok w ∧ selection.Reads kind es w
  | .error f => o = .error f

section
variable {α : Type} {f : α → Element} {one : α → Value} {several : List α → Value} {kind : Kind}

theorem reads_read (hone : ∀ a, one a = (f a).value)
    (hseveral : ∀ as, (several as).kind = kind ∧ (several as).elements? = some (as.map f))
    {elements : List α} (h : elements.length = (elements.map f).length)
    (selection : Selection elements.length) :
    (selection.cast h).Reads kind (elements.map f) (selection.read elements one several) := by
  have hget : ∀ place : Fin elements.length,
      (elements.map f).get (place.cast h) = f (elements.get place) := by
    intro place
    simp
  cases selection with
  | single place =>
    show one (elements.get place) = ((elements.map f).get (place.cast h)).value
    rw [hget, hone]
  | many places =>
    obtain ⟨hkind, helements⟩ := hseveral (places.map elements.get)
    refine ⟨hkind, helements.trans (congrArg some ?_)⟩
    rw [List.map_map, List.map_map]
    exact List.map_congr_left fun place _ => (hget place).symm

theorem map_read_reads (hone : ∀ a, one a = (f a).value)
    (hseveral : ∀ as, (several as).kind = kind ∧ (several as).elements? = some (as.map f))
    (elements : List α) (v i : Value) :
    ReadsSelection kind (elements.map f)
      (Except.map (Selection.read elements one several) (v.select i elements.length))
      (v.select i (elements.map f).length) := by
  have hlength : elements.length = (elements.map f).length := by rw [List.length_map]
  rw [select_of_eq hlength]
  cases v.select i elements.length with
  | error fault => rfl
  | ok selection => exact ⟨_, rfl, reads_read hone hseveral hlength selection⟩

end

/-- **Indexing reads what is selected from the elements**, in each kind of ordered value, and it fails as
the selection does. -/
theorem index_reads {v : Value} {es : List Element} (hv : v.elements? = some es) (i : Value) :
    ReadsSelection v.kind es (v.index i) (v.select i es.length) := by
  rcases eq_of_elements? hv with ⟨items, p, rfl, rfl⟩ | ⟨integers, p, rfl, rfl⟩ | ⟨s, p, rfl, rfl⟩
  · have hone : ∀ v : Value, id v = (Element.item v).value := fun _ => rfl
    have hseveral : ∀ vs, (array vs).kind = .array ∧ (array vs).elements? = some (vs.map .item) :=
      fun _ => ⟨rfl, rfl⟩
    exact map_read_reads hone hseveral items ⟨.array items, p⟩ i
  · have hone : ∀ n, integer n = (Element.integer n).value := fun _ => rfl
    have hseveral : ∀ ns, (range ns).kind = .range ∧ (range ns).elements? = some (ns.map .integer) :=
      fun _ => ⟨rfl, rfl⟩
    exact map_read_reads hone hseveral integers ⟨.range integers, p⟩ i
  · have hone : ∀ c, string (String.ofList [c]) = (Element.character c).value := fun _ => rfl
    have hseveral : ∀ cs, (string (String.ofList cs)).kind = .string ∧
        (string (String.ofList cs)).elements? = some (cs.map .character) := by
      intro cs
      refine ⟨rfl, ?_⟩
      show some ((String.ofList cs).toList.map Element.character) = _
      rw [String.toList_ofList]
    exact map_read_reads hone hseveral s.toList ⟨.string s, p⟩ i

/-! ## Places -/

/-- The fault of an index that points outside the value. -/
def outOfBoundsFault (v i : Value) : Fault := { cause := .indexOutOfBounds v.text i.text }

theorem place?_eq_some_iff {index : Int} {length : Nat} {place : Fin length} :
    place? index length = some place ↔
      (place : Int) = if index < 0 then index + length else index := by
  have hplace := place.isLt
  unfold place?
  simp only
  split
  · split
    · simp only [Option.some_inj, Fin.ext_iff]
      omega
    · exact iff_of_false nofun (by omega)
  · split
    · simp only [Option.some_inj, Fin.ext_iff]
      omega
    · exact iff_of_false nofun (by omega)

/-- **An index means a place** just if it is less than the length, from the start or from the end. -/
theorem exists_place?_iff {index : Int} {length : Nat} :
    (∃ place, place? index length = some place) ↔ -(length : Int) ≤ index ∧ index < length := by
  constructor
  · rintro ⟨place, h⟩
    have hplace := place.isLt
    have hindex := place?_eq_some_iff.1 h
    omega
  · intro h
    have hplace : (if index < 0 then index + (length : Int) else index).toNat < length := by omega
    refine ⟨⟨_, hplace⟩, place?_eq_some_iff.2 ?_⟩
    show (((if index < 0 then index + (length : Int) else index).toNat : Nat) : Int) = _
    omega

theorem place?_eq_none_iff {index : Int} {length : Nat} :
    place? index length = none ↔ ¬ (-(length : Int) ≤ index ∧ index < length) := by
  rw [← exists_place?_iff, ← Option.isSome_iff_exists, Option.not_isSome_iff_eq_none]

/-- Clamping to 64 bits loses no place of a value that is not longer than that. -/
theorem place?_clampWord {index : Int} {length : Nat} (h : (length : Int) ≤ greatestWord) :
    place? (clampWord index) length = place? index length := by
  unfold greatestWord at h
  by_cases hmem : leastWord ≤ index ∧ index ≤ greatestWord
  · rw [clampWord_of_mem hmem.1 hmem.2]
  · unfold leastWord greatestWord at hmem
    have hnone : place? index length = none := place?_eq_none_iff.2 (by omega)
    rw [hnone, place?_eq_none_iff]
    unfold clampWord leastWord greatestWord
    omega

/-! ## Places in 64-bit words -/

/-- The sum of two 64-bit integers, if it is one. -/
def wordSum? (a b : Int) : Option Int :=
  if leastWord ≤ a + b ∧ a + b ≤ greatestWord then some (a + b) else none

/-- The place that an index means, if it means one.  There is no answer if a sum on the way to it is not a
64-bit integer. -/
def checkedPlace? (index : Int) (length : Nat) : Option (Option Nat) :=
  (if index < 0 then wordSum? index length else some index).map fun (fromStart : Int) =>
    if 0 ≤ fromStart ∧ fromStart < length then some fromStart.toNat else none

/-- **No sum on the way to a place leaves the 64-bit integers.** -/
theorem checkedPlace?_eq {index : Int} {length : Nat} (hindex : leastWord ≤ index)
    (hlength : (length : Int) ≤ greatestWord) :
    checkedPlace? index length = some ((place? index length).map Fin.val) := by
  unfold leastWord at hindex
  unfold greatestWord at hlength
  have hstep : (if index < 0 then wordSum? index length else some index) =
      some (if index < 0 then index + (length : Int) else index) := by
    split
    · refine if_pos ?_
      unfold leastWord greatestWord
      omega
    · rfl
  have hread : ∀ n : Int, (if 0 ≤ n ∧ n < length then some n.toNat else none) =
      Option.map Fin.val
        (if h : 0 ≤ n ∧ n < length then some (⟨n.toNat, by omega⟩ : Fin length) else none) := by
    intro n
    by_cases h : 0 ≤ n ∧ n < length
    · rw [if_pos h, dif_pos h]
      rfl
    · rw [if_neg h, dif_neg h]
      rfl
  rw [checkedPlace?, hstep, Option.map_some]
  exact congrArg some (hread _)

/-! ## A single index -/

section
variable {v : Value} {es : List Element} {x : Number} {p : Position}

theorem select_number (h : x.isFinite = true) (v : Value) (length : Nat) :
    v.select ⟨.number x, p⟩ length =
      match place? x.truncated length with
      | some place => .ok (.single place)
      | none => .error (v.outOfBoundsFault ⟨.number x, p⟩) := by
  show Except.map Selection.single (v.resolve x ⟨.number x, p⟩ length) = _
  rw [resolve, if_pos h]
  cases place? x.truncated length <;> rfl

theorem index_number_of_place (hv : v.elements? = some es) (hfinite : x.isFinite = true)
    {place : Fin es.length} (h : place? x.truncated es.length = some place) :
    v.index ⟨.number x, p⟩ = .ok (es.get place).value := by
  have hreads := index_reads hv ⟨.number x, p⟩
  rw [select_number hfinite, h] at hreads
  obtain ⟨w, hw, rfl⟩ := hreads
  exact hw

theorem index_number_of_no_place (hv : v.elements? = some es) (hfinite : x.isFinite = true)
    (h : place? x.truncated es.length = none) :
    v.index ⟨.number x, p⟩ = .error (v.outOfBoundsFault ⟨.number x, p⟩) := by
  have hreads := index_reads hv ⟨.number x, p⟩
  rw [select_number hfinite, h] at hreads
  exact hreads

theorem index_number_of_not_finite (hv : v.elements? = some es) (h : x.isFinite = false) :
    v.index ⟨.number x, p⟩ = .error (v.indexFault ⟨.number x, p⟩) := by
  have hselect : v.select ⟨.number x, p⟩ es.length = .error (v.indexFault ⟨.number x, p⟩) := by
    show Except.map Selection.single (v.resolve x ⟨.number x, p⟩ es.length) = _
    rw [resolve, h]
    rfl
  have hreads := index_reads hv ⟨.number x, p⟩
  rw [hselect] at hreads
  exact hreads

end

/-- **A number indexes exactly.**  It means the place of its integer part, from the start or from the end;
the element there is what it gives, as a value.  Where there is no such place, it is out of bounds, and a
number that is not finite is no index at all.  The way to the place stays within the 64-bit integers. -/
theorem index_number_iff_and_element {v : Value} {es : List Element} (hv : v.elements? = some es)
    (hlength : (es.length : Int) ≤ greatestWord) (x : Number) (p : Position) :
    let i : Value := ⟨.number x, p⟩
    let t := x.integerPart
    (x.isFinite = false → v.index i = .error (v.indexFault i)) ∧
      (x.isFinite = true →
        ((∃ w, v.index i = .ok w) ↔ -(es.length : Int) ≤ t ∧ t < es.length) ∧
        (∀ w, v.index i = .ok w →
          ∃ e, es[(if t < 0 then es.length + t else t).toNat]? = some e ∧ w = e.value) ∧
        ∀ f, v.index i = .error f → f = v.outOfBoundsFault i) ∧
      checkedPlace? x.truncated es.length = some ((place? x.truncated es.length).map Fin.val) := by
  intro i t
  refine ⟨index_number_of_not_finite hv, fun hfinite => ?_,
    checkedPlace?_eq x.truncated_mem.1 hlength⟩
  have hplace : place? x.truncated es.length = place? t es.length := by
    rw [Number.truncated_eq hfinite, place?_clampWord hlength]
  cases h : place? t es.length with
  | none =>
    have hindex : v.index i = .error (v.outOfBoundsFault i) :=
      index_number_of_no_place hv hfinite (hplace.trans h)
    rw [hindex]
    refine ⟨iff_of_false (Outcome.not_exists_eq_ok _) (place?_eq_none_iff.1 h), nofun, ?_⟩
    rintro f ⟨⟩
    rfl
  | some place =>
    have hindex : v.index i = .ok (es.get place).value :=
      index_number_of_place hv hfinite (hplace.trans h)
    have hnat : (if t < 0 then es.length + t else t).toNat = place := by
      have hint := place?_eq_some_iff.1 h
      omega
    rw [hindex]
    refine ⟨iff_of_true ⟨_, rfl⟩ (exists_place?_iff.1 ⟨place, h⟩), ?_, ?_⟩
    · rintro w ⟨⟩
      have helement : es[(if t < 0 then es.length + t else t).toNat]? = some (es.get place) := by
        rw [hnat]
        exact List.getElem?_eq_getElem place.isLt
      exact ⟨es.get place, helement, rfl⟩
    · intro f hf
      cases hf

/-- The numbers -3/2, 2 and NaN as indices of a text of two characters. -/
theorem index_number_minus_three_halves :
    let v := string "hé"
    let es := [Element.character 'h', Element.character 'é']
    let x := (Number.ofInt (-3)).div (.ofInt 2)
    let y := Number.ofInt 2
    (v.elements? = some es ∧ (es.length : Int) ≤ greatestWord) ∧
      (x.isFinite = true ∧ v.index (number x) = .ok (string "é")) ∧
      (y.isFinite = true ∧ v.index (number y) = .error (v.outOfBoundsFault (number y))) ∧
      Number.nan.isFinite = false ∧
        v.index (number .nan) = .error (v.indexFault (number .nan)) := by
  intro v es x y
  have hv : v.elements? = some es := rfl
  have hlength : (es.length : Int) ≤ greatestWord := by decide
  have hx : x.isFinite = true := by decide +kernel
  have hy : y.isFinite = true := by decide +kernel
  have hxpart : x.integerPart = -1 := by decide +kernel
  have hypart : y.integerPart = 2 := by decide +kernel
  obtain ⟨_, hinside, _⟩ := index_number_iff_and_element hv hlength x .unknown
  obtain ⟨_, houtside, _⟩ := index_number_iff_and_element hv hlength y .unknown
  obtain ⟨hnan, _, _⟩ := index_number_iff_and_element hv hlength .nan .unknown
  obtain ⟨hxiff, hxelement, _⟩ := hinside hx
  obtain ⟨hyiff, _, hyfault⟩ := houtside hy
  rw [hxpart] at hxiff hxelement
  rw [hypart] at hyiff
  have hxindex : v.index (number x) = .ok (string "é") := by
    obtain ⟨w, hw⟩ := hxiff.2 (by decide)
    obtain ⟨e, he, rfl⟩ := hxelement w hw
    obtain rfl : Element.character 'é' = e := Option.some.inj he
    exact hw
  have hyindex : v.index (number y) = .error (v.outOfBoundsFault (number y)) := by
    cases h : v.index (number y) with
    | ok w => exact absurd (hyiff.1 ⟨w, h⟩) (by decide)
    | error f => exact congrArg Except.error (hyfault f h)
  exact ⟨⟨hv, hlength⟩, ⟨hx, hxindex⟩, ⟨hy, hyindex⟩, rfl, hnan rfl⟩

end Value
end ExprLang
