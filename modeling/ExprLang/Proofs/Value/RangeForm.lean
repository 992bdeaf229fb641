import ExprLang.Proofs.Number.Integers
import ExprLang.Proofs.Value.Bare
import ExprLang.Proofs.Value.Regrouping

/-!
# Arrays in the form of ranges

An array converts to a range if its elements convert to 64-bit integers.  It does not matter whether it is
converted before it is indexed or afterwards (`convert_range_iff_and_index`): a single index gives an integer
in the one case and an element in the other, which unary plus makes a number, and indices that gather give a
range and an array, which converts.

* The places that an index selects depend on the length of what is indexed, and the rest of it is only shown
  in faults (`select_extends`).  Conversion keeps the length.
* At each place the range has the integer of the array's element (`integerOf?_get`).  An element that is
  no integer of 64 bits does not convert, and the number nearest to the integer of one that does is the
  number of the element itself (`agree_plus`), except that zero loses its sign.
-/

namespace ExprLang
namespace Value

/-! ## Conversion -/

/-- The 64-bit integer that a value converts to, if it does. -/
def integerOf? (v : Value) : Option Int := v.number?.bind Number.integer?

theorem toNumber_eq_ok_iff {v : Value} {x : Number} : v.toNumber = .ok x ↔ v.number? = some x := by
  rw [toNumber]
  cases v.number? <;> simp

theorem exists_integerOf?_iff {v : Value} :
    (∃ n, v.integerOf? = some n) ↔ ∃ x, v.toNumber = .ok x ∧ x.FitsWord := by
  simp only [toNumber_eq_ok_iff, Number.fitsWord_iff, integerOf?, Option.bind_eq_some_iff]
  constructor
  · rintro ⟨n, x, hx, hn⟩
    exact ⟨x, hx, n, hn⟩
  · rintro ⟨x, hx, n, hn⟩
    exact ⟨n, x, hx, hn⟩

theorem integers?_cons_eq_some_iff {v : Value} {items : List Value} {integers : List Int} :
    integers? (v :: items) = some integers ↔
      ∃ n rest, v.integerOf? = some n ∧ integers? items = some rest ∧ n :: rest = integers := by
  show (v :: items).mapM integerOf? = some integers ↔ _
  rw [List.mapM_cons]
  simp only [Option.bind_eq_bind, Option.bind_eq_some_iff, Option.pure_def, Option.some_inj]
  constructor
  · rintro ⟨n, hn, rest, hrest, h⟩
    exact ⟨n, rest, hn, hrest, h⟩
  · rintro ⟨n, rest, hn, hrest, h⟩
    exact ⟨n, hn, rest, hrest, h⟩

/-- The integers of an array are those of its elements, one by one. -/
theorem integers?_eq_some_iff {items : List Value} {integers : List Int} :
    integers? items = some integers ↔ items.map integerOf? = integers.map some := by
  induction items generalizing integers with
  | nil =>
    show some [] = some integers ↔ [] = integers.map some
    rw [Option.some_inj, eq_comm (a := []), eq_comm (a := []), List.map_eq_nil_iff]
  | cons v items ih =>
    rw [integers?_cons_eq_some_iff, List.map_cons, eq_comm (b := integers.map some),
      List.map_eq_cons_iff]
    constructor
    · rintro ⟨n, rest, hn, hrest, rfl⟩
      exact ⟨n, rest, rfl, hn.symm, (ih.1 hrest).symm⟩
    · rintro ⟨n, rest, rfl, hn, hrest⟩
      exact ⟨n, rest, hn.symm, ih.2 hrest.symm, rfl⟩

/-- **An array has integers just if each of its elements has one.** -/
theorem exists_integers?_iff {items : List Value} :
    (∃ integers, integers? items = some integers) ↔ ∀ v ∈ items, ∃ n, v.integerOf? = some n := by
  induction items with
  | nil => exact iff_of_true ⟨[], rfl⟩ fun _ hv => absurd hv List.not_mem_nil
  | cons v items ih =>
    rw [List.forall_mem_cons, ← ih]
    simp only [integers?_cons_eq_some_iff]
    constructor
    · rintro ⟨_, n, rest, hn, hrest, -⟩
      exact ⟨⟨n, hn⟩, rest, hrest⟩
    · rintro ⟨⟨n, hn⟩, rest, hrest⟩
      exact ⟨n :: rest, n, rest, hn, hrest, rfl⟩

theorem convert_range_eq_ok_iff {items : List Value} {p : Position} {r : Value} :
    convert ⟨.array items, p⟩ .range = .ok r ↔
      ∃ integers, integers? items = some integers ∧ r = ⟨.range integers, p⟩ := by
  have hpayload : convertPayload? ⟨.array items, p⟩ .range = (integers? items).map .range := rfl
  rw [convert, hpayload]
  cases integers? items with
  | none => exact iff_of_false nofun fun ⟨_, h, _⟩ => nomatch h
  | some integers =>
    constructor
    · rintro ⟨⟩
      exact ⟨integers, rfl, rfl⟩
    · rintro ⟨_, ⟨⟩, rfl⟩
      rfl

/-! ## Elements -/

/-- **An integer that a value converts to is the number that it converts to.** -/
theorem agree_plus {v : Value} {n : Int} (h : v.integerOf? = some n) :
    Outcome.Agree (.ok (integer n)) v.plus := by
  obtain ⟨x, hx, hn⟩ := Option.bind_eq_some_iff.1 h
  obtain ⟨hfinite, hlevel, -⟩ := Number.integer?_eq_some_iff.1 hn
  have hplus : v.plus = .ok (number x) := by
    rw [plus, toNumber_eq_ok_iff.2 hx]
    rfl
  rw [hplus]
  refine number_equal_iff.2 ?_
  rw [Number.order, Number.level_ofInt_of_level hfinite hlevel]
  exact Std.ReflCmp.compare_self

section
variable {items : List Value} {integers : List Int}

theorem length_of_integers? (h : integers? items = some integers) :
    items.length = integers.length := by
  simpa using congrArg List.length (integers?_eq_some_iff.1 h)

/-- At each place the integer is that of the element. -/
theorem integerOf?_get (h : integers? items = some integers) (hlength : items.length = integers.length)
    (place : Fin items.length) :
    (items.get place).integerOf? = some (integers.get (place.cast hlength)) := by
  have hmap := integers?_eq_some_iff.1 h
  have hget := List.getElem_of_eq hmap (i := place) (by simp)
  simpa using hget

theorem integers?_map_get (h : integers? items = some integers)
    (hlength : items.length = integers.length) (places : List (Fin items.length)) :
    integers? (places.map items.get) =
      some ((places.map (Fin.cast hlength)).map integers.get) := by
  rw [integers?_eq_some_iff, List.map_map, List.map_map, List.map_map]
  exact List.map_congr_left fun place _ => integerOf?_get h hlength place

end

/-! ## Selections -/

theorem resolve_extends (v w : Value) (x : Number) (i : Value) (length : Nat) :
    Outcome.Extends (w.resolve x i length) (v.resolve x i length) := by
  intro place h
  rw [resolve] at h ⊢
  split at h
  · rename_i hfinite
    rw [if_pos hfinite]
    split at h
    · exact h
    · cases h
  · cases h

theorem resolveItem_extends (v w : Value) (length : Nat) (i : Value) :
    Outcome.Extends (w.resolveItem length i) (v.resolveItem length i) := by
  obtain ⟨payload, p⟩ := i
  cases payload with
  | number x => exact resolve_extends v w x ⟨.number x, p⟩ length
  | _ => exact nofun

theorem resolveInteger_extends (v w : Value) (length : Nat) (n : Int) :
    Outcome.Extends (w.resolveInteger length n) (v.resolveInteger length n) := by
  intro place h
  rw [resolveInteger] at h ⊢
  split at h
  · exact h
  · cases h

/-- **What is selected depends on the length of a value**, and on nothing else of it. -/
theorem select_extends (v w i : Value) (length : Nat) :
    Outcome.Extends (w.select i length) (v.select i length) := by
  obtain ⟨payload, p⟩ := i
  cases payload with
  | number x => exact (resolve_extends v w x ⟨.number x, p⟩ length).map Selection.single
  | range integers =>
    have hstep := Outcome.Extends.mapM (resolveInteger_extends v w length) integers
    exact hstep.map Selection.many
  | array items =>
    have hstep := Outcome.Extends.mapM (resolveItem_extends v w length) items
    exact hstep.map Selection.many
  | _ => exact nofun

/-- Numbers select single places. -/
theorem exists_single_of_select {v i : Value} {length : Nat} {selection : Selection length}
    (h : v.select i length = .ok selection) (hi : i.kind = .number) :
    ∃ place, selection = .single place := by
  obtain ⟨payload, p⟩ := i
  cases payload with
  | number x =>
    obtain ⟨place, -, hplace⟩ := Outcome.map_eq_ok_iff.1 h
    exact ⟨place, hplace.symm⟩
  | _ => cases hi

/-- Ranges and arrays select several places. -/
theorem exists_many_of_select {v i : Value} {length : Nat} {selection : Selection length}
    (h : v.select i length = .ok selection) (hi : i.kind = .range ∨ i.kind = .array) :
    ∃ places, selection = .many places := by
  obtain ⟨payload, p⟩ := i
  cases payload with
  | range integers =>
    obtain ⟨places, -, hplaces⟩ := Outcome.map_eq_ok_iff.1 h
    exact ⟨places, hplaces.symm⟩
  | array items =>
    obtain ⟨places, -, hplaces⟩ := Outcome.map_eq_ok_iff.1 h
    exact ⟨places, hplaces.symm⟩
  | _ => rcases hi with hi | hi <;> cases hi

/-! ## Indexing and conversion -/

section
variable {items : List Value} {integers : List Int} {p q : Position} {i : Value}

/-- **An index selects from an array and from a range of the same length alike.** -/
theorem index_array_and_range (hlength : items.length = integers.length) (p q : Position) (i : Value) :
    (∃ selection, select ⟨.array items, p⟩ i items.length = .ok selection ∧
      index ⟨.array items, p⟩ i = .ok (selection.read items id array) ∧
      index ⟨.range integers, q⟩ i = .ok ((selection.cast hlength).read integers integer range)) ∨
    ∃ f g, index ⟨.array items, p⟩ i = .error f ∧ index ⟨.range integers, q⟩ i = .error g := by
  have harray : index ⟨.array items, p⟩ i =
    Except.map (Selection.read items id array) (select ⟨.array items, p⟩ i items.length) := rfl
  have hrange : index ⟨.range integers, q⟩ i =
    Except.map (Selection.read integers integer range)
      (select ⟨.range integers, q⟩ i integers.length) := rfl
  rw [select_of_eq hlength] at hrange
  cases h : select ⟨.array items, p⟩ i items.length with
  | ok selection =>
    rw [h] at harray
    rw [select_extends _ ⟨.range integers, q⟩ i items.length selection h] at hrange
    exact .inl ⟨selection, rfl, harray, hrange⟩
  | error f =>
    rw [h] at harray
    cases h' : select ⟨.range integers, q⟩ i items.length with
    | ok selection =>
      -- the array would select the same
      have hselection := select_extends _ ⟨.array items, p⟩ i items.length selection h'
      exact nomatch h.symm.trans hselection
    | error g =>
      rw [h'] at hrange
      exact .inr ⟨f, g, harray, hrange⟩

/-- **Conversion to a range commutes with indexing.** -/
theorem index_range_form (h : integers? items = some integers) (p q : Position) (i : Value) :
    let a : Value := ⟨.array items, p⟩
    let r : Value := ⟨.range integers, q⟩
    ((∃ u, r.index i = .ok u) ↔ ∃ w, a.index i = .ok w) ∧
      (i.kind = .number → Outcome.Agree (r.index i) (a.index i >>= plus)) ∧
      (i.kind = .range ∨ i.kind = .array →
        Outcome.Agree (r.index i) (a.index i >>= fun w => w.convert .range)) := by
  intro a r
  have hlength := length_of_integers? h
  rcases index_array_and_range hlength p q i with ⟨selection, hselect, ha, hr⟩ | ⟨f, g, ha, hr⟩
  · rw [ha, hr]
    refine ⟨iff_of_true ⟨_, rfl⟩ ⟨_, rfl⟩, fun hi => ?_, fun hi => ?_⟩
    · obtain ⟨place, rfl⟩ := exists_single_of_select hselect hi
      exact agree_plus (integerOf?_get h hlength place)
    · obtain ⟨places, rfl⟩ := exists_many_of_select hselect hi
      have hgathered : convert (array (places.map items.get)) .range =
          .ok (range ((places.map (Fin.cast hlength)).map integers.get)) :=
        convert_range_eq_ok_iff.2 ⟨_, integers?_map_get h hlength places, rfl⟩
      show Outcome.Agree (.ok (range ((places.map (Fin.cast hlength)).map integers.get)))
        (convert (array (places.map items.get)) .range)
      rw [hgathered]
      exact Outcome.agree_refl _
  · rw [ha, hr]
    exact ⟨iff_of_false (Outcome.not_exists_eq_ok g) (Outcome.not_exists_eq_ok f), fun _ => trivial,
      fun _ => trivial⟩

end

/-- **An array converts to a range just if its elements convert to 64-bit integers**, and then it can be
converted before it is indexed as well as afterwards: by unary plus if the index is a number, and to a
range if the index gathers. -/
theorem convert_range_iff_and_index (items : List Value) (p : Position) :
    let a : Value := ⟨.array items, p⟩
    ((∃ r, a.convert .range = .ok r) ↔ ∀ v ∈ items, ∃ x, v.toNumber = .ok x ∧ x.FitsWord) ∧
      ∀ r, a.convert .range = .ok r →
        r.kind = .range ∧ r.length = a.length ∧
        ∀ i : Value,
          ((∃ u, r.index i = .ok u) ↔ ∃ w, a.index i = .ok w) ∧
          (i.kind = .number → Outcome.Agree (r.index i) (a.index i >>= plus)) ∧
          (i.kind = .range ∨ i.kind = .array →
            Outcome.Agree (r.index i) (a.index i >>= fun w => w.convert .range)) := by
  intro a
  constructor
  · simp only [← exists_integerOf?_iff, ← exists_integers?_iff, a, convert_range_eq_ok_iff]
    exact ⟨fun ⟨_, integers, h, _⟩ => ⟨integers, h⟩, fun ⟨integers, h⟩ => ⟨_, integers, h, rfl⟩⟩
  · intro r hr
    obtain ⟨integers, h, rfl⟩ := convert_range_eq_ok_iff.1 hr
    refine ⟨rfl, ?_, fun i => index_range_form h p p i⟩
    exact congrArg Except.ok (length_of_integers? h).symm

/-- An array of a text, a boolean and null: its first element, and its last one gathered twice. -/
theorem convert_range_of_text_and_null :
    let items := [string "-0", boolean true, null]
    let a : Value := ⟨.array items, .unknown⟩
    let r := range [0, 1, 0]
    let first := number .zero
    let twice := range [-1, -1]
    a.convert .range = .ok r ∧
      (first.kind = .number ∧ Outcome.Agree (r.index first) (a.index first >>= plus)) ∧
      (twice.kind = .range ∨ twice.kind = .array) ∧
        Outcome.Agree (r.index twice) (a.index twice >>= fun w => w.convert .range) := by
  intro items a r first twice
  have hintegers : integers? items = some [0, 1, 0] := by decide +kernel
  have hconvert : a.convert .range = .ok r := convert_range_eq_ok_iff.2 ⟨_, hintegers, rfl⟩
  obtain ⟨_, hindex⟩ := convert_range_iff_and_index items .unknown
  obtain ⟨-, -, hcommute⟩ := hindex r hconvert
  have hfirst : first.kind = .number := rfl
  have htwice : twice.kind = .range ∨ twice.kind = .array := .inl rfl
  -- else the values are computed, by division of huge counts
  clear_value first twice
  obtain ⟨-, hsingle, -⟩ := hcommute first
  obtain ⟨-, -, hgathered⟩ := hcommute twice
  exact ⟨hconvert, ⟨hfirst, hsingle hfirst⟩, htwice, hgathered htwice⟩

end Value
end ExprLang
