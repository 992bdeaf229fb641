import ExprLang.Proofs.Decimal.PlainNotation
import ExprLang.Proofs.Value.Bare

/-!
# What the text of a value tells

Faults show a value by its text on one line.  The text tells everything but one: a range has the text of an
array of its integers.  So values of one text are the same once all ranges are arrays, and ranges that stand
in the same place are the same (`unranged_eq_of_text_eq`).

The first character of a text tells whether it is a string, a list, a map, or a word (`Kind.opening?`).

* A word is read back to what it stands for (`ofWord?_chars`): a number by the reading of numbers, and the
  other words are no numbers.
* An integer is read back as well, since no rounding is involved (`integerOfChars_integerChars`).  Read as
  a number it gives the number nearest to it, which is what an array has in its place.
* For the elements of lists and maps it is by induction.  An element is followed by more text, so what is
  proved by induction is that the text tells the value and ends by itself (`IsTold`).
-/

namespace ExprLang

/-! ## Integers -/

/-- The integer that a text stands for, if it was written for one. -/
def integerOfChars (cs : List Char) : ℤ :=
  Number.signed (spanSign cs).1 (digitsValue (spanSign cs).2)

/-- **An integer is read back from its text.** -/
theorem integerOfChars_integerChars (n : ℤ) : integerOfChars (integerChars n) = n := by
  have hsign : spanSign (integerChars n) = (decide (n < 0), Decimal.digitsOf n.natAbs) := by
    have hdigits : ∀ c ∈ (Decimal.digitsOf n.natAbs).head?, c ≠ '-' ∧ c ≠ '+' := fun c hc => by
      have hdigit := Decimal.isDigit_of_mem_digitsOf (List.mem_of_mem_head? hc)
      exact ⟨ne_of_isDigit hdigit rfl, ne_of_isDigit hdigit rfl⟩
    rw [integerChars, ← Decimal.signText_minus, spanSign_signText_append _ hdigits]
    cases decide (n < 0) <;> rfl
  rw [integerOfChars, hsign, Decimal.digitsValue_digitsOf]
  by_cases hn : n < 0
  · rw [decide_eq_true hn, Number.signed_true]
    omega
  · rw [decide_eq_false hn, Number.signed_false]
    omega

theorem integerChars_injective : Function.Injective integerChars :=
  Function.LeftInverse.injective integerOfChars_integerChars

/-! ## First characters -/

/-- Whether a character begins the texts of strings, lists or maps. -/
def isOpening (c : Char) : Bool := c == '"' || c == '[' || c == '\x7b'

/-- The character that the texts of a kind begin with, unless they are words. -/
def Kind.opening? : Kind → Option Char
  | .string => some '"'
  | .array | .range => some '['
  | .map => some '\x7b'
  | .boolean | .number | .null | .undefined => none

theorem isOpening_eq_false_of_isWordChar {c : Char} (h : isWordChar c = true) : isOpening c = false := by
  by_contra hc
  rw [Bool.not_eq_false, isOpening, Bool.or_eq_true, Bool.or_eq_true, beq_iff_eq, beq_iff_eq,
    beq_iff_eq] at hc
  rcases hc with (rfl | rfl) | rfl <;> exact absurd h (by decide)

namespace Value

theorem isWordChar_of_mem_chars {v : Value} (h : v.kind.opening? = none) {layout : Layout} {c : Char}
    (hc : c ∈ v.chars layout) : isWordChar c = true := by
  have hall : (v.chars layout).all isWordChar = true := by
    obtain ⟨payload, p⟩ := v
    cases payload with
    | boolean b => cases b <;> rfl
    | number x => exact List.all_eq_true.2 fun _ => Number.isWordChar_of_mem_plainChars
    | null => rfl
    | undefined => rfl
    | _ => cases h
  exact List.all_eq_true.1 hall c hc

theorem filter_head?_word_append {cs rest : List Char} (hcs : ∀ c ∈ cs, isWordChar c = true)
    (hrest : Delimited rest) : (cs ++ rest).head?.filter isOpening = none := by
  rw [Option.filter_eq_none_iff]
  intro c hc
  have hfalse : isOpening c = false := by
    rw [List.head?_append] at hc
    rcases Option.or_eq_some_iff.1 hc with hc | ⟨-, hc⟩
    · exact isOpening_eq_false_of_isWordChar (hcs c (List.mem_of_mem_head? hc))
    · rcases hrest c hc with rfl | rfl <;> rfl
  rw [hfalse]
  decide

/-- **The first character tells the kind**, or that it is a word, whatever is behind the text. -/
theorem filter_head?_chars_append (v : Value) {rest : List Char} (hrest : Delimited rest) :
    (v.chars .line ++ rest).head?.filter isOpening = v.kind.opening? := by
  have hbracketed : ∀ opening closing items, isOpening opening = true →
      (Layout.line.bracketed opening closing items ++ rest).head?.filter isOpening = some opening := by
    intro opening closing items h
    obtain ⟨tail, htail⟩ := Layout.exists_bracketed_eq_cons .line opening closing items
    rw [htail]
    exact Option.filter_some_pos h
  obtain ⟨payload, p⟩ := v
  cases payload with
  | string s => rfl
  | array items => exact hbracketed '[' ']' (itemChars items .line) rfl
  | map entries => exact hbracketed '\x7b' '\x7d' (entryChars entries .line) rfl
  | range integers => exact hbracketed '[' ']' (integers.map integerChars) rfl
  | _ => exact filter_head?_word_append (fun _ => isWordChar_of_mem_chars rfl) hrest

theorem opening?_eq_of_append_eq {v w : Value} {rest rest' : List Char} (hrest : Delimited rest)
    (hrest' : Delimited rest') (h : v.chars .line ++ rest = w.chars .line ++ rest') :
    v.kind.opening? = w.kind.opening? := by
  rw [← filter_head?_chars_append v hrest, h, filter_head?_chars_append w hrest']

/-- What a word stands for. -/
def ofWord? (cs : List Char) : Option (Payload Value) :=
  match Number.ofChars? cs with
  | some x => some (.number x)
  | none =>
    if cs = ['t', 'r', 'u', 'e'] then some (.boolean true)
    else if cs = ['f', 'a', 'l', 's', 'e'] then some (.boolean false)
    else if cs = ['n', 'u', 'l', 'l'] then some .null
    else some .undefined

theorem ofWord?_of_ofChars? {cs : List Char} {x : Number} (h : Number.ofChars? cs = some x) :
    ofWord? cs = some (.number x) := by
  rw [ofWord?, h]

/-- **A word is read back to what it stands for.** -/
theorem ofWord?_chars {v : Value} (h : v.kind.opening? = none) (layout : Layout) :
    ofWord? (v.chars layout) = some v.payload := by
  obtain ⟨payload, p⟩ := v
  cases payload with
  | boolean b => cases b <;> rfl
  | number x => exact ofWord?_of_ofChars? (Number.ofChars?_plainChars x)
  | null => rfl
  | undefined => rfl
  | _ => cases h

/-! ## Values that have one text -/

mutual

/-- The value with an array of its integers for each range, at any depth. -/
def unranged : Value → Value
  | ⟨.boolean b, p⟩ => ⟨.boolean b, p⟩
  | ⟨.string s, p⟩ => ⟨.string s, p⟩
  | ⟨.number x, p⟩ => ⟨.number x, p⟩
  | ⟨.array items, p⟩ => ⟨.array (unrangedItems items), p⟩
  | ⟨.map entries, p⟩ => ⟨.map (unrangedEntries entries), p⟩
  | ⟨.range integers, p⟩ => ⟨.array (integers.map integer), p⟩
  | ⟨.null, p⟩ => ⟨.null, p⟩
  | ⟨.undefined, p⟩ => ⟨.undefined, p⟩

/-- Several values without ranges. -/
def unrangedItems : List Value → List Value
  | [] => []
  | v :: rest => unranged v :: unrangedItems rest

/-- Several entries without ranges. -/
def unrangedEntries : List (String × Value) → List (String × Value)
  | [] => []
  | (key, v) :: rest => (key, unranged v) :: unrangedEntries rest

end

theorem unrangedItems_eq_map (items : List Value) : unrangedItems items = items.map unranged := by
  induction items with
  | nil => rfl
  | cons v rest ih => rw [unrangedItems, ih, List.map_cons]

theorem unrangedEntries_eq_map (entries : List (String × Value)) :
    unrangedEntries entries = entries.map (Prod.map id unranged) := by
  induction entries with
  | nil => rfl
  | cons e rest ih =>
    obtain ⟨key, v⟩ := e
    rw [unrangedEntries, ih]
    rfl

/-- One step from a value to a part of it. -/
inductive Step where
  | item (i : ℕ)
  | entry (key : String)

/-- The part that a step leads to, if there is one. -/
def Step.follow? : Step → Value → Option Value
  | .item i, ⟨.array items, _⟩ => items[i]?
  | .entry key, ⟨.map entries, _⟩ => Entries.lookup key entries
  | _, _ => none

/-- The part at a place: where a number of steps leads to, if to anything. -/
def part? (v : Value) : List Step → Option Value
  | [] => some v
  | step :: path => (step.follow? v).bind fun w => w.part? path

/-- The values are the same but for positions once all ranges are arrays, and ranges in the same place are
the same already. -/
structure Alike (v w : Value) : Prop where
  unranged_eq : v.unranged.bare = w.unranged.bare
  range_eq : ∀ {path : List Step} {integers integers' : List ℤ} {p q : Position},
    v.part? path = some ⟨.range integers, p⟩ → w.part? path = some ⟨.range integers', q⟩ →
    integers = integers'

theorem Alike.symm {v w : Value} (h : Alike v w) : Alike w v :=
  ⟨h.unranged_eq.symm, fun hw hv => (h.range_eq hv hw).symm⟩

theorem Step.follow?_withPosition (step : Step) (v : Value) (p : Position) :
    step.follow? (v.withPosition p) = step.follow? v := by
  obtain ⟨payload, q⟩ := v
  cases step <;> cases payload <;> rfl

theorem alike_of_payload_eq {v w : Value} (h : v.payload = w.payload) : Alike v w := by
  obtain ⟨a, p⟩ := v
  obtain ⟨b, q⟩ := w
  obtain rfl : a = b := h
  refine ⟨?_, fun {path} integers integers' _ _ hv hw => ?_⟩
  · cases a <;> rfl
  · cases path with
    | nil =>
      have ha : a = .range integers := congrArg payload (Option.some_inj.1 hv)
      have ha' : a = .range integers' := congrArg payload (Option.some_inj.1 hw)
      exact Payload.range.inj (ha.symm.trans ha')
    | cons step path =>
      have hsame : part? ⟨a, q⟩ (step :: path) = part? ⟨a, p⟩ (step :: path) :=
        congrArg (fun part : Option Value => part.bind fun w => w.part? path)
          (step.follow?_withPosition ⟨a, p⟩ q)
      rw [hsame, hv] at hw
      cases hw
      rfl

/-- Composites are alike if their parts are. -/
theorem alike_of_follow? {v w : Value} (hunranged : v.unranged.bare = w.unranged.bare)
    (hkind : v.kind ≠ .range)
    (hparts : ∀ (step : Step) a b, step.follow? v = some a → step.follow? w = some b → Alike a b) :
    Alike v w := by
  refine ⟨hunranged, fun {path} integers _ _ _ hv hw => ?_⟩
  cases path with
  | nil =>
    cases hv
    exact absurd rfl hkind
  | cons step path =>
    obtain ⟨a, ha, hv⟩ := Option.bind_eq_some_iff.1 hv
    obtain ⟨b, hb, hw⟩ := Option.bind_eq_some_iff.1 hw
    exact (hparts step a b ha hb).range_eq hv hw

theorem map_eq_map_of_forall₂ {α β γ : Type} {f : α → γ} {g : β → γ} {as : List α} {bs : List β}
    (h : List.Forall₂ (fun a b => f a = g b) as bs) : as.map f = bs.map g := by
  rw [← List.forall₂_eq_eq_eq, List.forall₂_map_left_iff, List.forall₂_map_right_iff]
  exact h

theorem bare_unranged_array (items : List Value) (p : Position) :
    (unranged ⟨.array items, p⟩).bare = array (items.map fun v => v.unranged.bare) := by
  rw [unranged, unrangedItems_eq_map, bare_array, List.map_map]
  rfl

theorem bare_unranged_map (entries : List (String × Value)) (p : Position) :
    (unranged ⟨.map entries, p⟩).bare =
      map (entries.map fun e => (e.1, e.2.unranged.bare)) := by
  rw [unranged, unrangedEntries_eq_map, bare_map, List.map_map]
  rfl

theorem alike_arrays {items items' : List Value} (h : List.Forall₂ Alike items items') (p q : Position) :
    Alike ⟨.array items, p⟩ ⟨.array items', q⟩ := by
  refine alike_of_follow? ?_ (nomatch ·) fun step a b ha hb => ?_
  · rw [bare_unranged_array, bare_unranged_array]
    exact congrArg array (map_eq_map_of_forall₂ (h.imp fun _ _ => Alike.unranged_eq))
  · cases step with
    | item i =>
      obtain ⟨hi, rfl⟩ := List.getElem?_eq_some_iff.1 ha
      obtain ⟨hi', rfl⟩ := List.getElem?_eq_some_iff.1 hb
      exact h.get hi hi'
    | entry key => cases ha

theorem alike_lookup {entries entries' : List (String × Value)}
    (h : List.Forall₂ (fun e e' => e.1 = e'.1 ∧ Alike e.2 e'.2) entries entries') {key : String}
    {a b : Value} (ha : Entries.lookup key entries = some a) (hb : Entries.lookup key entries' = some b) :
    Alike a b := by
  induction h with
  | nil => cases ha
  | @cons e e' rest rest' hhead _ ih =>
    rw [Entries.lookup_cons] at ha hb
    by_cases hkey : e.1 = key
    · rw [if_pos hkey] at ha
      rw [if_pos (hhead.1 ▸ hkey)] at hb
      exact Option.some_inj.1 ha ▸ Option.some_inj.1 hb ▸ hhead.2
    · rw [if_neg hkey] at ha
      rw [if_neg (hhead.1 ▸ hkey)] at hb
      exact ih ha hb

theorem alike_maps {entries entries' : List (String × Value)}
    (h : List.Forall₂ (fun e e' => e.1 = e'.1 ∧ Alike e.2 e'.2) entries entries') (p q : Position) :
    Alike ⟨.map entries, p⟩ ⟨.map entries', q⟩ := by
  refine alike_of_follow? ?_ (nomatch ·) fun step a b ha hb => ?_
  · rw [bare_unranged_map, bare_unranged_map]
    exact congrArg map (map_eq_map_of_forall₂
      (h.imp fun _ _ hentry => Prod.ext hentry.1 hentry.2.unranged_eq))
  · cases step with
    | item i => cases ha
    | entry key => exact alike_lookup h ha hb

/-- An array is like a range if its elements are the numbers nearest to the integers. -/
theorem alike_array_range {items : List Value} {integers : List ℤ}
    (h : List.Forall₂ (fun v n => v.payload = .number (.ofInt n)) items integers) (p q : Position) :
    Alike ⟨.array items, p⟩ ⟨.range integers, q⟩ := by
  refine alike_of_follow? ?_ (nomatch ·) fun step a b _ hb => ?_
  · rw [bare_unranged_array, unranged, bare_array, List.map_map]
    refine congrArg array (map_eq_map_of_forall₂ (h.imp fun v n hv => ?_))
    exact (alike_of_payload_eq (w := integer n) hv).unranged_eq
  · cases step <;> cases hb

/-! ## Reading -/

/-- The text of the value tells it, and ends by itself where text follows it in a list. -/
def IsTold (v : Value) : Prop :=
  ∀ (w : Value) (rest rest' : List Char), Delimited rest → Delimited rest' →
    v.chars .line ++ rest = w.chars .line ++ rest' → Alike v w ∧ rest = rest'

theorem isTold_of_word {v : Value} (hv : v.kind.opening? = none) : v.IsTold := by
  intro w rest rest' hrest hrest' h
  have hw : w.kind.opening? = none := opening?_eq_of_append_eq hrest hrest' h ▸ hv
  obtain ⟨hchars, hrests⟩ := word_append_inj (fun _ => isWordChar_of_mem_chars hv)
    (fun _ => isWordChar_of_mem_chars hw) hrest hrest' h
  have hpayload := ofWord?_chars hv .line
  rw [hchars, ofWord?_chars hw] at hpayload
  exact ⟨alike_of_payload_eq (Option.some_inj.1 hpayload).symm, hrests⟩

theorem isTold_string (s : String) (p : Position) : IsTold ⟨.string s, p⟩ := by
  intro w rest rest' hrest hrest' h
  have hopening := opening?_eq_of_append_eq hrest hrest' h
  obtain ⟨payload, q⟩ := w
  cases payload with
  | string t =>
    obtain ⟨rfl, hrests⟩ := Quoted.quote_append_inj h
    exact ⟨alike_of_payload_eq rfl, hrests⟩
  | _ => cases hopening

/-- An element with the text of an integer is the number nearest to it. -/
theorem payload_eq_ofInt {v : Value} {n : ℤ} {rest rest' : List Char} (hrest : Delimited rest)
    (hrest' : Delimited rest') (h : v.chars .line ++ rest = integerChars n ++ rest') :
    v.payload = .number (.ofInt n) ∧ rest = rest' := by
  have hv : v.kind.opening? = none := by
    rw [← filter_head?_chars_append v hrest, h]
    exact filter_head?_word_append (fun _ => isWordChar_of_mem_integerChars) hrest'
  obtain ⟨hchars, hrests⟩ := word_append_inj (fun _ => isWordChar_of_mem_chars hv)
    (fun _ => isWordChar_of_mem_integerChars) hrest hrest' h
  have hpayload := ofWord?_chars hv .line
  rw [hchars, ofWord?_of_ofChars? (Number.ofChars?_integerChars n)] at hpayload
  exact ⟨(Option.some_inj.1 hpayload).symm, hrests⟩

theorem chars_array (items : List Value) (p : Position) :
    chars ⟨.array items, p⟩ .line = Layout.line.bracketed '[' ']' (items.map fun v => v.chars .line) := by
  rw [← itemChars_eq_map]
  rfl

theorem chars_map (entries : List (String × Value)) (p : Position) :
    chars ⟨.map entries, p⟩ .line = Layout.line.bracketed '\x7b' '\x7d'
      (entries.map fun e => Quoted.quote e.1 ++ ':' :: ' ' :: e.2.chars .line) := by
  rw [← entryChars_eq_map]
  rfl

theorem chars_range (integers : List ℤ) (p : Position) :
    chars ⟨.range integers, p⟩ .line = Layout.line.bracketed '[' ']' (integers.map integerChars) := rfl

theorem alike_array_range_of_append_eq {items : List Value} {integers : List ℤ} {p q : Position}
    {rest rest' : List Char}
    (h : chars ⟨.array items, p⟩ .line ++ rest = chars ⟨.range integers, q⟩ .line ++ rest') :
    Alike ⟨.array items, p⟩ ⟨.range integers, q⟩ ∧ rest = rest' := by
  have hends : ∀ v ∈ items, ∀ (n : ℤ) (u u' : List Char), Delimited u → Delimited u' →
      v.chars .line ++ u = integerChars n ++ u' → v.payload = .number (.ofInt n) ∧ u = u' :=
    fun v _ n u u' hu hu' => payload_eq_ofInt hu hu'
  rw [chars_array, chars_range] at h
  obtain ⟨hitems, hrests⟩ := Layout.forall₂_of_bracketed_append_eq (by decide) hends h
  exact ⟨alike_array_range hitems p q, hrests⟩

theorem isTold_array {items : List Value} (hitems : ∀ v ∈ items, v.IsTold) (p : Position) :
    IsTold ⟨.array items, p⟩ := by
  intro w rest rest' hrest hrest' h
  have hopening := opening?_eq_of_append_eq hrest hrest' h
  obtain ⟨payload, q⟩ := w
  cases payload with
  | array items' =>
    rw [chars_array, chars_array] at h
    obtain ⟨halike, hrests⟩ := Layout.forall₂_of_bracketed_append_eq (by decide) hitems h
    exact ⟨alike_arrays halike p q, hrests⟩
  | range integers => exact alike_array_range_of_append_eq h
  | _ => cases hopening

theorem isTold_range (integers : List ℤ) (p : Position) : IsTold ⟨.range integers, p⟩ := by
  intro w rest rest' hrest hrest' h
  have hopening := opening?_eq_of_append_eq hrest hrest' h
  obtain ⟨payload, q⟩ := w
  cases payload with
  | array items =>
    obtain ⟨halike, hrests⟩ := alike_array_range_of_append_eq h.symm
    exact ⟨halike.symm, hrests.symm⟩
  | range integers' =>
    have hends : ∀ n ∈ integers, ∀ (m : ℤ) (u u' : List Char), Delimited u → Delimited u' →
        integerChars n ++ u = integerChars m ++ u' → n = m ∧ u = u' := by
      intro n _ m u u' hu hu' h
      obtain ⟨hchars, hrests⟩ := word_append_inj (fun _ => isWordChar_of_mem_integerChars)
        (fun _ => isWordChar_of_mem_integerChars) hu hu' h
      exact ⟨integerChars_injective hchars, hrests⟩
    rw [chars_range, chars_range] at h
    obtain ⟨hintegers, hrests⟩ := Layout.forall₂_of_bracketed_append_eq (by decide) hends h
    rw [List.forall₂_eq_eq_eq] at hintegers
    exact ⟨alike_of_payload_eq (congrArg Payload.range hintegers), hrests⟩
  | _ => cases hopening

theorem isTold_map {entries : List (String × Value)} (hentries : ∀ e ∈ entries, e.2.IsTold)
    (p : Position) : IsTold ⟨.map entries, p⟩ := by
  intro w rest rest' hrest hrest' h
  have hopening := opening?_eq_of_append_eq hrest hrest' h
  obtain ⟨payload, q⟩ := w
  cases payload with
  | map entries' =>
    have hends : ∀ e ∈ entries, ∀ (e' : String × Value) (u u' : List Char),
        Delimited u → Delimited u' →
        (Quoted.quote e.1 ++ ':' :: ' ' :: e.2.chars .line) ++ u =
          (Quoted.quote e'.1 ++ ':' :: ' ' :: e'.2.chars .line) ++ u' →
        (e.1 = e'.1 ∧ Alike e.2 e'.2) ∧ u = u' := by
      intro e he e' u u' hu hu' h
      rw [List.append_assoc, List.append_assoc] at h
      obtain ⟨hkey, h⟩ := Quoted.quote_append_inj h
      obtain ⟨halike, hrests⟩ :=
        hentries e he e'.2 u u' hu hu' (List.cons.inj (List.cons.inj h).2).2
      exact ⟨⟨hkey, halike⟩, hrests⟩
    rw [chars_map, chars_map] at h
    obtain ⟨halike, hrests⟩ := Layout.forall₂_of_bracketed_append_eq (by decide) hends h
    exact ⟨alike_maps halike p q, hrests⟩
  | _ => cases hopening

/-- **Every value is told by its text.** -/
theorem isTold (v : Value) : v.IsTold := by
  induction v using Value.induction with
  | string s p => exact isTold_string s p
  | array items p ih => exact isTold_array ih p
  | map entries p ih => exact isTold_map ih p
  | range integers p => exact isTold_range integers p
  | _ => exact isTold_of_word rfl

/-- **Values of one text are the same once all ranges are arrays** of their integers as numbers: they are equal,
and more than that, they differ in positions only.  Ranges that stand in the same place have the same
integers. -/
theorem unranged_eq_of_text_eq {v w : Value} (h : v.text = w.text) :
    v.unranged.equal w.unranged = true ∧ v.unranged.bare = w.unranged.bare ∧
      ∀ (path : List Step) (integers integers' : List ℤ) (p q : Position),
        v.part? path = some ⟨.range integers, p⟩ → w.part? path = some ⟨.range integers', q⟩ →
        integers = integers' := by
  have hchars : v.chars .line ++ [] = w.chars .line ++ [] := by
    rw [String.ofList_injective h]
  obtain ⟨halike, -⟩ := isTold v w [] [] delimited_nil delimited_nil hchars
  refine ⟨?_, halike.unranged_eq, fun path integers integers' p q => halike.range_eq⟩
  rw [equal, ← order_bare, halike.unranged_eq, order_bare]
  exact equal_refl w.unranged

/-- A range beside an array of its integers, and one beside itself under a key with a quote in it. -/
theorem unranged_eq_of_ranges :
    let v := map [("a", range [1, 2]), ("\"", range [3])]
    let w := map [("a", array [integer 1, integer 2]), ("\"", range [3])]
    v.text = w.text ∧ v.unranged.equal w.unranged = true ∧ ([3] : List ℤ) = [3] := by
  intro v w
  have htext : v.text = w.text := by decide +kernel
  obtain ⟨hequal, -, hranges⟩ := unranged_eq_of_text_eq htext
  exact ⟨htext, hequal, hranges [.entry "\""] [3] [3] .unknown .unknown rfl rfl⟩

end Value
end ExprLang
