import ExprLang.Proofs.Entries.Mapping
import ExprLang.Proofs.Outcome
import ExprLang.Proofs.Value.Comparison
import ExprLang.Value.Indexing

/-!
# Operations do not look at positions

Every value carries a position, and so does everything in it.  Operations hand positions on with what
they select, but do not look at them: on bare values each of them gives the bare value of what it gives
otherwise, or the same fault.

There is one lemma for each function, from the texts that faults show (`text_bare`) through conversions
to the operators and to indexing (`index_bare`).  What a function returns decides how its lemma reads.
Truth values, numbers, texts and orderings are the same on both sides; a value on the one side is the
bare value of that on the other.

Indexing is where positions might interfere, since it passes elements through.  It does so in two steps.
The places that are selected depend on the length and on the index alone (`select_bare`), and reading
them commutes with whatever is done to each element (`read_map`).
-/

namespace ExprLang

/-- The contents of a value with a function applied to each element. -/
def Payload.mapElements {α β : Type} (f : α → β) : Payload α → Payload β
  | .boolean b => .boolean b
  | .string s => .string s
  | .number x => .number x
  | .array items => .array (items.map f)
  | .map entries => .map (entries.map (Prod.map id f))
  | .range integers => .range integers
  | .null => .null
  | .undefined => .undefined

namespace Value

/-! ## Bare values -/

/-- **A bare value has bare elements and no position.** -/
theorem bare_eq (v : Value) : v.bare = ⟨v.payload.mapElements bare, .unknown⟩ := by
  obtain ⟨payload, p⟩ := v
  cases payload with
  | array items => exact congrArg array (mapItemNumbers_eq_map id items)
  | map entries => exact congrArg map (mapEntryNumbers_eq_map id entries)
  | _ => rfl

theorem bare_array (items : List Value) (p : Position) :
    bare ⟨.array items, p⟩ = array (items.map bare) := bare_eq _

theorem bare_map (entries : List (String × Value)) (p : Position) :
    bare ⟨.map entries, p⟩ = map (entries.map (Prod.map id bare)) := bare_eq _

theorem bare_number (x : Number) : (number x).bare = number x := bare_eq _

@[simp] theorem bare_withPosition (v : Value) (p : Position) : (v.withPosition p).bare = v.bare := by
  rw [bare_eq, bare_eq]
  rfl

/-- A bare value stands at no position already. -/
@[simp] theorem withPosition_unknown_bare (v : Value) : v.bare.withPosition .unknown = v.bare := by
  rw [bare_eq]
  rfl

@[simp] theorem kind_bare (v : Value) : v.bare.kind = v.kind := mapNumbers_kind id v

/-! ## Texts -/

theorem itemChars_eq_map (items : List Value) (layout : Layout) :
    itemChars items layout = items.map fun v => v.chars layout := by
  induction items with
  | nil => rfl
  | cons v rest ih => rw [itemChars, ih, List.map_cons]

theorem entryChars_eq_map (entries : List (String × Value)) (layout : Layout) :
    entryChars entries layout =
      entries.map fun e => Quoted.quote e.1 ++ ':' :: ' ' :: e.2.chars layout := by
  induction entries with
  | nil => rfl
  | cons e rest ih => rw [entryChars, ih, List.map_cons]

theorem chars_bare (v : Value) (layout : Layout) : v.bare.chars layout = v.chars layout := by
  induction v using Value.induction generalizing layout with
  | array items p ih =>
    have hitems : itemChars (items.map bare) layout.inner = itemChars items layout.inner := by
      rw [itemChars_eq_map, itemChars_eq_map, List.map_map]
      exact List.map_congr_left fun v hv => ih v hv layout.inner
    rw [bare_array, array, chars, chars, hitems]
  | map entries p ih =>
    have hentries : entryChars (entries.map (Prod.map id bare)) layout.inner =
        entryChars entries layout.inner := by
      rw [entryChars_eq_map, entryChars_eq_map, List.map_map]
      refine List.map_congr_left fun e he => ?_
      show Quoted.quote e.1 ++ ':' :: ' ' :: e.2.bare.chars layout.inner = _
      rw [ih e he]
    rw [bare_map, map, chars, chars, hentries]
  | _ => rfl

/-- **Values are shown without their positions.** -/
@[simp] theorem text_bare (v : Value) : v.bare.text = v.text :=
  congrArg String.ofList (chars_bare v .line)

@[simp] theorem indexFault_bare (v i : Value) : v.bare.indexFault i.bare = v.indexFault i := by
  rw [indexFault, indexFault, text_bare, text_bare]

/-! ## Conversion -/

@[simp] theorem number?_bare (v : Value) : v.bare.number? = v.number? := by
  obtain ⟨payload, p⟩ := v
  cases payload <;> rfl

@[simp] theorem string?_bare (v : Value) : v.bare.string? = v.string? := by
  obtain ⟨payload, p⟩ := v
  cases payload <;> rfl

@[simp] theorem toNumber_bare (v : Value) : v.bare.toNumber = v.toNumber := by
  simp [toNumber, conversionFault]

@[simp] theorem toText_bare (v : Value) : v.bare.toText = v.toText := by
  simp [toText, conversionFault]

@[simp] theorem truthy_bare (v : Value) : v.bare.truthy = v.truthy := by
  obtain ⟨payload, p⟩ := v
  cases payload with
  | array items => simp [bare_eq, Payload.mapElements, truthy]
  | map entries => simp [bare_eq, Payload.mapElements, truthy]
  | _ => rfl

@[simp] theorem length_bare (v : Value) : v.bare.length = v.length := by
  obtain ⟨payload, p⟩ := v
  cases payload with
  | array items => simp [bare_eq, Payload.mapElements, length]
  | map entries => simp [bare_eq, Payload.mapElements, length]
  | _ => rfl

@[simp] theorem key?_bare (k : Value) : k.bare.key? = k.key? := by
  obtain ⟨payload, p⟩ := k
  cases payload <;> rfl

/-! ## Operators -/

theorem plus_bare (v : Value) : v.bare.plus = Except.map bare v.plus := by
  rw [plus, plus, toNumber_bare, kind_bare]
  cases v.toNumber <;> rfl

theorem minus_bare (v : Value) : v.bare.minus = Except.map bare v.minus := by
  rw [minus, minus, toNumber_bare, kind_bare]
  cases v.toNumber <;> rfl

@[simp] theorem bothNumbers_bare (op : BinaryOp) (v w : Value) :
    bothNumbers op v.bare w.bare = bothNumbers op v w := by
  simp [bothNumbers, mismatch]

theorem arithmetic_bare (op : BinaryOp) (f : Number → Number → Number) (v w : Value) :
    arithmetic op f v.bare w.bare = Except.map bare (arithmetic op f v w) := by
  rw [arithmetic, arithmetic, bothNumbers_bare]
  cases bothNumbers op v w <;> rfl

theorem concatenate_bare (v w : Value) :
    concatenate v.bare w.bare = Except.map bare (concatenate v w) := by
  simp only [concatenate, mismatch, toText_bare, kind_bare]
  cases v.toText with
  | error f => rfl
  | ok s => cases w.toText <;> rfl

/-- A string on either side makes `+` join texts. -/
theorem add_of_string {v w : Value} (h : v.kind = .string ∨ w.kind = .string) :
    v.add w = concatenate v w := by
  obtain ⟨a, p⟩ := v
  obtain ⟨b, q⟩ := w
  cases a <;> cases b <;> first | rfl | simp [kind, Payload.kind] at h

/-- Without a string, `+` is on numbers unless both sides are arrays or both are maps. -/
theorem add_of_not_string {v w : Value} (h : ¬ (v.kind = .string ∨ w.kind = .string))
    (harrays : ¬ (v.kind = .array ∧ w.kind = .array)) (hmaps : ¬ (v.kind = .map ∧ w.kind = .map)) :
    v.add w = arithmetic .add Number.add v w := by
  obtain ⟨a, p⟩ := v
  obtain ⟨b, q⟩ := w
  cases a <;> cases b <;> first | rfl | simp [kind, Payload.kind] at h harrays hmaps

theorem add_bare (v w : Value) : v.bare.add w.bare = Except.map bare (v.add w) := by
  by_cases hstring : v.kind = .string ∨ w.kind = .string
  · rw [add_of_string hstring, add_of_string (by simpa using hstring), concatenate_bare]
  by_cases harrays : v.kind = .array ∧ w.kind = .array
  · obtain ⟨as, hv⟩ := wraps_array.surjective v.payload harrays.1
    obtain ⟨bs, hw⟩ := wraps_array.surjective w.payload harrays.2
    have hsum : v.add w = .ok (array (as ++ bs)) := by simp only [add, hv, hw]
    rw [hsum, bare_eq v, bare_eq w, hv, hw]
    show Except.ok (array (as.map bare ++ bs.map bare)) = .ok (array (as ++ bs)).bare
    rw [← List.map_append]
    exact congrArg Except.ok (bare_array (as ++ bs) .unknown).symm
  by_cases hmaps : v.kind = .map ∧ w.kind = .map
  · obtain ⟨as, hv⟩ := wraps_map.surjective v.payload hmaps.1
    obtain ⟨bs, hw⟩ := wraps_map.surjective w.payload hmaps.2
    have hsum : v.add w = .ok (map (Entries.merge as bs)) := by simp only [add, hv, hw]
    rw [hsum, bare_eq v, bare_eq w, hv, hw]
    show Except.ok (map (Entries.merge (as.map (Prod.map id bare)) (bs.map (Prod.map id bare)))) =
      .ok (map (Entries.merge as bs)).bare
    rw [Entries.merge_map]
    exact congrArg Except.ok (bare_map (Entries.merge as bs) .unknown).symm
  · rw [add_of_not_string hstring harrays hmaps,
      add_of_not_string (by simpa using hstring) (by simpa using harrays) (by simpa using hmaps),
      arithmetic_bare]

theorem convertedOrder?_bare (v w : Value) : v.bare.convertedOrder? w.bare = v.convertedOrder? w := by
  simp [convertedOrder?]

theorem compare_bare (v w : Value) : v.bare.compare w.bare = v.compare w := by
  have hiff : Structural v.bare w.bare ↔ Structural v w := by simp [Structural]
  by_cases hstructural : Structural v w
  · rw [compare_of_structural hstructural, compare_of_structural (hiff.2 hstructural), order_bare]
  · rw [compare_of_not_structural hstructural, compare_of_not_structural (mt hiff.1 hstructural),
      convertedOrder?_bare, text_bare, text_bare, kind_bare, kind_bare]

theorem rangeBounds_bare (v w : Value) : v.bare.rangeBounds w.bare = v.rangeBounds w := by
  rw [rangeBounds, rangeBounds, bothNumbers_bare]

/-! ## Indexing -/

theorem resolve_bare (v : Value) (x : Number) (i : Value) (length : Nat) :
    v.bare.resolve x i.bare length = v.resolve x i length := by
  simp [resolve]

theorem resolveItem_bare (v : Value) (length : Nat) (i : Value) :
    v.bare.resolveItem length i.bare = v.resolveItem length i := by
  obtain ⟨payload, p⟩ := i
  cases payload with
  | number x => exact resolve_bare v x ⟨.number x, p⟩ length
  | _ => exact congrArg Except.error (indexFault_bare v _)

theorem resolveInteger_bare (v : Value) (length : Nat) (n : Int) :
    v.bare.resolveInteger length n = v.resolveInteger length n := by
  rw [resolveInteger, resolveInteger, text_bare]

/-- **What is selected does not depend on positions.** -/
theorem select_bare (v i : Value) (length : Nat) :
    v.bare.select i.bare length = v.select i length := by
  obtain ⟨payload, p⟩ := i
  cases payload with
  | number x => exact congrArg (Except.map Selection.single) (resolve_bare v x ⟨.number x, p⟩ length)
  | range integers =>
    have hinteger : v.bare.resolveInteger length = v.resolveInteger length :=
      funext fun n => resolveInteger_bare v length n
    show Except.map Selection.many (integers.mapM (v.bare.resolveInteger length)) = _
    rw [hinteger]
    rfl
  | array items =>
    have hitem : v.bare.resolveItem length ∘ bare = v.resolveItem length :=
      funext fun i => resolveItem_bare v length i
    rw [bare_array]
    show Except.map Selection.many ((items.map bare).mapM (v.bare.resolveItem length)) = _
    rw [List.mapM_map, hitem]
    rfl
  | _ => exact congrArg Except.error (indexFault_bare v _)

/-- The same selection among as many elements. -/
def Selection.cast {m n : Nat} (h : m = n) : Selection m → Selection n
  | .single place => .single (place.cast h)
  | .many places => .many (places.map (Fin.cast h))

theorem select_of_eq {m n : Nat} (h : m = n) (v i : Value) :
    v.select i n = Except.map (Selection.cast h) (v.select i m) := by
  subst h
  cases v.select i m with
  | error f => rfl
  | ok selection => cases selection <;> simp [Except.map, Selection.cast]

/-- **Reading a selection commutes with what is done to each element.** -/
theorem read_map {α β : Type} {f : α → β} {one : α → Value} {several : List α → Value}
    {one' : β → Value} {several' : List β → Value} (hone : ∀ a, one' (f a) = (one a).bare)
    (hseveral : ∀ as, several' (as.map f) = (several as).bare) {elements : List α}
    (h : elements.length = (elements.map f).length) (selection : Selection elements.length) :
    Selection.read (elements.map f) one' several' (selection.cast h) =
      (selection.read elements one several).bare := by
  have hget : ∀ place : Fin elements.length,
      (elements.map f).get (place.cast h) = f (elements.get place) := by
    intro place
    simp
  cases selection with
  | single place =>
    show one' ((elements.map f).get (place.cast h)) = _
    rw [hget, hone]
    rfl
  | many places =>
    have hplaces : (places.map (Fin.cast h)).map (elements.map f).get =
        (places.map elements.get).map f := by
      rw [List.map_map, List.map_map]
      exact List.map_congr_left fun place _ => hget place
    show several' ((places.map (Fin.cast h)).map (elements.map f).get) = _
    rw [hplaces, hseveral]
    rfl

/-- Where reading gives bare values, it does not matter whether the value that is read from is bare. -/
theorem map_read_bare {α : Type} {elements : List α} {one : α → Value} {several : List α → Value}
    (hone : ∀ a, (one a).bare = one a) (hseveral : ∀ as, (several as).bare = several as)
    (v i : Value) :
    Except.map (Selection.read elements one several) (v.bare.select i.bare elements.length) =
      Except.map bare (Except.map (Selection.read elements one several)
        (v.select i elements.length)) := by
  rw [select_bare]
  cases v.select i elements.length with
  | error f => rfl
  | ok selection =>
    cases selection with
    | single place => exact congrArg Except.ok (hone _).symm
    | many places => exact congrArg Except.ok (hseveral _).symm

theorem entryFor_bare (v : Value) (entries : Entries Value) (k : Value) :
    v.bare.entryFor (entries.map (Prod.map id bare)) k.bare =
      Except.map (Prod.map id bare) (v.entryFor entries k) := by
  rw [entryFor, entryFor, key?_bare, indexFault_bare]
  cases k.key? with
  | none => rfl
  | some key =>
    simp only [Option.bind_some, Entries.lookup_map]
    cases Entries.lookup key entries <;> rfl

theorem index_map_bare (entries : Entries Value) (p : Position) (i : Value) :
    (bare ⟨.map entries, p⟩).index i.bare = Except.map bare (index ⟨.map entries, p⟩ i) := by
  have hfault := indexFault_bare ⟨.map entries, p⟩ i
  obtain ⟨payload, q⟩ := i
  cases payload with
  | string key =>
    rw [bare_map] at hfault ⊢
    simp only [index, map, bare_eq ⟨.string key, q⟩, Payload.mapElements, Entries.lookup_map]
    cases Entries.lookup key entries with
    | none => exact congrArg Except.error hfault
    | some found => rfl
  | array keys =>
    have hchosen := Outcome.mapM_map_eq (entryFor_bare ⟨.map entries, p⟩ entries) keys
    rw [bare_map] at hchosen ⊢
    rw [bare_array]
    show ((keys.map bare).mapM (entryFor (map (entries.map (Prod.map id bare)))
      (entries.map (Prod.map id bare))) >>= fun chosen => .ok (map (Entries.ofList chosen))) = _
    rw [hchosen]
    show _ = Except.map bare (keys.mapM (entryFor ⟨.map entries, p⟩ entries) >>=
      fun chosen => .ok (map (Entries.ofList chosen)))
    cases keys.mapM (entryFor ⟨.map entries, p⟩ entries) with
    | error f => rfl
    | ok chosen =>
      show Except.ok (map (Entries.ofList (chosen.map (Prod.map id bare)))) =
        .ok (map (Entries.ofList chosen)).bare
      rw [Entries.ofList_map]
      exact congrArg Except.ok (bare_map (Entries.ofList chosen) .unknown).symm
  | _ => exact congrArg Except.error hfault

theorem index_array_bare (items : List Value) (p : Position) (i : Value) :
    (bare ⟨.array items, p⟩).index i.bare = Except.map bare (index ⟨.array items, p⟩ i) := by
  have hselect := select_bare ⟨.array items, p⟩ i
  have hlength : items.length = (items.map bare).length := by rw [List.length_map]
  rw [bare_array] at hselect ⊢
  show Except.map (Selection.read (items.map bare) id array)
    ((array (items.map bare)).select i.bare (items.map bare).length) = Except.map bare
    (Except.map (Selection.read items id array) (select ⟨.array items, p⟩ i items.length))
  rw [hselect, select_of_eq hlength]
  cases select ⟨.array items, p⟩ i items.length with
  | error f => rfl
  | ok selection =>
    have hone : ∀ v : Value, id v.bare = (id v).bare := fun _ => rfl
    have hseveral : ∀ vs : List Value, array (vs.map bare) = (array vs).bare :=
      fun vs => (bare_array vs .unknown).symm
    exact congrArg Except.ok (read_map hone hseveral hlength selection)

/-- **Indexing does not look at positions.** -/
theorem index_bare (v i : Value) : v.bare.index i.bare = Except.map bare (v.index i) := by
  obtain ⟨payload, p⟩ := v
  cases payload with
  | array items => exact index_array_bare items p i
  | map entries => exact index_map_bare entries p i
  | range integers =>
    exact map_read_bare (fun n => bare_number (.ofInt n)) (fun _ => rfl) ⟨.range integers, p⟩ i
  | string s => exact map_read_bare (fun _ => rfl) (fun _ => rfl) ⟨.string s, p⟩ i
  | _ => exact congrArg Except.error (indexFault_bare _ i)

end Value
end ExprLang
