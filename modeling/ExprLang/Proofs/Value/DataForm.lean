import ExprLang.Json.Reading
import ExprLang.Proofs.Entries.Mapping
import ExprLang.Proofs.Number.Nearest
import ExprLang.Proofs.Value.Regrouping
import ExprLang.Value.Data

/-!
# What data keep of a value

A value that is written as data and read again comes back in its *data form*.  `dataForm` says what
that is without mentioning data: at every depth, a range becomes the array of the numbers nearest to
its integers (`Number.isNearest_ofInt`); undefined, NaN and the infinities become null; and everything
stands at no position.  Nothing else is lost, so keys, texts, the order of elements and the sign of zeros
stay.

Writing and reading recur over two different kinds of trees.  Both go through lists element by
element (`itemsToJson_eq_map`, `itemsOfJson_eq_map` and their like for entries), so the round trip is
one function on values, and its law needs no induction but that on values.

There is one place where reading does more than to undo: the fields of an object are made into a
table, which sorts them.  Hence a value comes back in its data form just if its maps are tables, at
every depth, which is what `Tabular` says (`roundTrip_eq_dataForm_iff`).  Maps that the library makes are.
-/

namespace ExprLang
namespace Value

/-! ## Values whose maps are tables -/

/-- The values right below a value: the elements of an array, or the values of a map. -/
def parts : Value → List Value
  | ⟨.array items, _⟩ => items
  | ⟨.map entries, _⟩ => entries.map Prod.snd
  | _ => []

/-- Every map in the value, at any depth, is a table: its keys increase. -/
inductive Tabular : Value → Prop where
  | node {v : Value} (root : v.SortedKeys) (below : ∀ w ∈ v.parts, Tabular w) : Tabular v

theorem tabular_iff {v : Value} : v.Tabular ↔ v.SortedKeys ∧ ∀ w ∈ v.parts, w.Tabular :=
  ⟨fun | .node hroot hbelow => ⟨hroot, hbelow⟩, fun h => .node h.1 h.2⟩

/-- Where there is nothing below, there are no maps but empty ones. -/
theorem tabular_of_parts_eq_nil {v : Value} (h : v.parts = []) : v.Tabular := by
  refine .node (fun entries hentries => ?_) fun w hw => absurd (h ▸ hw) List.not_mem_nil
  obtain ⟨payload, p⟩ := v
  obtain rfl : payload = .map entries := hentries
  rw [List.map_eq_nil_iff.1 h]
  exact Entries.sorted_nil

theorem tabular_array_iff {items : List Value} {p : Position} :
    Tabular ⟨.array items, p⟩ ↔ ∀ v ∈ items, v.Tabular :=
  tabular_iff.trans (and_iff_right nofun)

theorem tabular_map_iff {entries : Entries Value} {p : Position} :
    Tabular ⟨.map entries, p⟩ ↔ Entries.Sorted entries ∧ ∀ e ∈ entries, e.2.Tabular := by
  have hkeys : SortedKeys ⟨.map entries, p⟩ ↔ Entries.Sorted entries :=
    ⟨fun h => h entries rfl, fun h entries' h' => Payload.map.inj h' ▸ h⟩
  rw [tabular_iff, hkeys]
  exact and_congr_right fun _ => List.forall_mem_map

/-! ## Data forms -/

mutual

/-- The value as far as data can say it. -/
def dataForm : Value → Value
  | ⟨.boolean b, _⟩ => boolean b
  | ⟨.string s, _⟩ => string s
  | ⟨.number x, _⟩ => if x.isFinite then number x else null
  | ⟨.array items, _⟩ => array (itemDataForms items)
  | ⟨.map entries, _⟩ => map (entryDataForms entries)
  | ⟨.range integers, _⟩ => array (integers.map integer)
  | ⟨.null, _⟩ => null
  | ⟨.undefined, _⟩ => null

/-- Several values, each in its data form. -/
def itemDataForms : List Value → List Value
  | [] => []
  | v :: rest => dataForm v :: itemDataForms rest

/-- Several entries, each with its value in its data form. -/
def entryDataForms : List (String × Value) → List (String × Value)
  | [] => []
  | (key, v) :: rest => (key, dataForm v) :: entryDataForms rest

end

theorem itemDataForms_eq_map (items : List Value) : itemDataForms items = items.map dataForm := by
  induction items with
  | nil => rfl
  | cons v rest ih => rw [itemDataForms, ih, List.map_cons]

theorem entryDataForms_eq_map (entries : List (String × Value)) :
    entryDataForms entries = entries.map (Prod.map id dataForm) := by
  induction entries with
  | nil => rfl
  | cons e rest ih =>
    rw [entryDataForms, ih, List.map_cons]
    rfl

/-! ## Writing and reading, element by element -/

theorem itemsToJson_eq_map (items : List Value) : itemsToJson items = items.map toJson := by
  induction items with
  | nil => rfl
  | cons v rest ih => rw [itemsToJson, ih, List.map_cons]

theorem entriesToJson_eq_map (entries : List (String × Value)) :
    entriesToJson entries = entries.map (Prod.map id toJson) := by
  induction entries with
  | nil => rfl
  | cons e rest ih =>
    rw [entriesToJson, ih, List.map_cons]
    rfl

theorem itemsOfJson_eq_map (items : List Json) : itemsOfJson items = items.map ofJson := by
  induction items with
  | nil => rfl
  | cons j rest ih => rw [itemsOfJson, ih, List.map_cons]

theorem entriesOfJson_eq_map (fields : List (String × Json)) :
    entriesOfJson fields = fields.map (Prod.map id ofJson) := by
  induction fields with
  | nil => rfl
  | cons field rest ih =>
    rw [entriesOfJson, ih, List.map_cons]
    rfl

/-- The value that comes back when a value is written as data and read again. -/
def roundTrip (v : Value) : Value := ofJson v.toJson

theorem roundTrip_array (items : List Value) (p : Position) :
    roundTrip ⟨.array items, p⟩ = array (items.map roundTrip) := by
  rw [roundTrip, toJson, ofJson, itemsToJson_eq_map, itemsOfJson_eq_map, List.map_map]
  rfl

/-- The entries of a map are made into a table when they are read. -/
theorem roundTrip_map (entries : Entries Value) (p : Position) :
    roundTrip ⟨.map entries, p⟩ = map (Entries.ofList (entries.map (Prod.map id roundTrip))) := by
  rw [roundTrip, toJson, ofJson, entriesToJson_eq_map, entriesOfJson_eq_map, List.map_map]
  rfl

theorem roundTrip_range (integers : List Int) (p : Position) :
    roundTrip ⟨.range integers, p⟩ = array (integers.map integer) := by
  rw [roundTrip, toJson, ofJson, itemsOfJson_eq_map, List.map_map]
  rfl

/-! ## The round trip -/

/-- Making a table of entries with new values keeps the entries as they are just if their keys
increased before. -/
theorem ofList_map_eq_map_iff {f g : Value → Value} {entries : Entries Value} :
    Entries.ofList (entries.map (Prod.map id f)) = entries.map (Prod.map id g) ↔
      Entries.Sorted entries ∧ ∀ e ∈ entries, f e.2 = g e.2 := by
  have hpointwise : entries.map (Prod.map id f) = entries.map (Prod.map id g) ↔
      ∀ e ∈ entries, f e.2 = g e.2 := by
    rw [List.map_inj_left]
    exact forall₂_congr fun e _ => ⟨fun h => congrArg Prod.snd h, fun h => congrArg (Prod.mk e.1) h⟩
  constructor
  · intro h
    have hsorted : Entries.Sorted entries := by
      rw [← Entries.sorted_map_iff g, ← h]
      exact Entries.sorted_ofList _
    rw [Entries.ofList_of_sorted ((Entries.sorted_map_iff f).2 hsorted)] at h
    exact ⟨hsorted, hpointwise.1 h⟩
  · rintro ⟨hsorted, h⟩
    rw [Entries.ofList_of_sorted ((Entries.sorted_map_iff f).2 hsorted)]
    exact hpointwise.2 h

/-- **A value comes back in its data form just if its maps are tables.** -/
theorem roundTrip_eq_dataForm_iff (v : Value) : v.roundTrip = v.dataForm ↔ v.Tabular := by
  induction v using Value.induction with
  | array items p ih =>
    rw [roundTrip_array, dataForm, itemDataForms_eq_map, tabular_array_iff, ← forall₂_congr ih,
      ← List.map_inj_left]
    exact ⟨fun h => Payload.array.inj (congrArg payload h), fun h => congrArg array h⟩
  | map entries p ih =>
    rw [roundTrip_map, dataForm, entryDataForms_eq_map, tabular_map_iff, ← forall₂_congr ih,
      ← ofList_map_eq_map_iff]
    exact ⟨fun h => Payload.map.inj (congrArg payload h), fun h => congrArg map h⟩
  | number x p =>
    refine iff_of_true ?_ (tabular_of_parts_eq_nil rfl)
    rw [roundTrip, toJson, dataForm]
    split <;> rfl
  | range integers p =>
    refine iff_of_true ?_ (tabular_of_parts_eq_nil rfl)
    rw [roundTrip_range, dataForm]
  | _ => exact iff_of_true rfl (tabular_of_parts_eq_nil rfl)

/-- **Data give a value back in its data form**, just if its maps are tables.  So do texts, for
everyone who reads them as the data that were written.  The numbers in the place of a range are nearest
to its integers, which are those of 64 bits. -/
theorem ofJson_toJson_iff_and_read_and_isNearest (v : Value) :
    (ofJson v.toJson = v.dataForm ↔ v.Tabular) ∧
      (v.Tabular → ∀ read : String → Option Json, read v.jsonText = some v.toJson →
        (read v.jsonText).map ofJson = some v.dataForm) ∧
      ∀ n : Int, leastWord ≤ n → n ≤ greatestWord → (Number.ofInt n).IsNearest n := by
  refine ⟨roundTrip_eq_dataForm_iff v, fun h read hread => ?_, fun n h h' => ?_⟩
  · rw [hread]
    exact congrArg some ((roundTrip_eq_dataForm_iff v).2 h)
  · exact Number.isNearest_ofInt (Number.isFinite_ofInt h h')

/-- A map with everything that data cannot say, one of its integers, and a map with an array in it whose text
is read. -/
theorem ofJson_toJson_lossy_map :
    let items := [⟨.number (.signedZero true), ⟨1, 7⟩⟩, range [9007199254740993, -1], number .nan]
    let v : Value := ⟨.map [("a", ⟨.array items, ⟨1, 6⟩⟩), ("b\n", undefined)], ⟨1, 1⟩⟩
    let zero : Value := ⟨.number (.signedZero true), ⟨2, 6⟩⟩
    let u : Value := ⟨.map [("b", array [zero, range [3], undefined])], ⟨2, 1⟩⟩
    (v.Tabular ∧ ofJson v.toJson = map
        [("a", array [number (.signedZero true),
          array [integer 9007199254740993, integer (-1)], null]), ("b\n", null)]) ∧
      (leastWord ≤ 9007199254740993 ∧ 9007199254740993 ≤ greatestWord ∧
        (Number.ofInt 9007199254740993).IsNearest 9007199254740993) ∧
      u.Tabular ∧ Json.ofText? u.jsonText = some u.toJson ∧
        (Json.ofText? u.jsonText).map ofJson =
          some (map [("b", array [number (.signedZero true), array [integer 3], null])]) := by
  intro items v zero u
  obtain ⟨hback, _, hnearest⟩ := ofJson_toJson_iff_and_read_and_isNearest v
  obtain ⟨_, htext, _⟩ := ofJson_toJson_iff_and_read_and_isNearest u
  have hv : v.Tabular := by
    refine tabular_map_iff.2 ⟨by unfold Entries.Sorted; decide, ?_⟩
    refine List.forall_mem_cons.2 ⟨?_, List.forall_mem_singleton.2 (tabular_of_parts_eq_nil rfl)⟩
    refine tabular_array_iff.2 (List.forall_mem_cons.2 ⟨tabular_of_parts_eq_nil rfl, ?_⟩)
    exact List.forall_mem_cons.2
      ⟨tabular_of_parts_eq_nil rfl, List.forall_mem_singleton.2 (tabular_of_parts_eq_nil rfl)⟩
  have hu : u.Tabular := by
    refine tabular_map_iff.2 ⟨List.pairwise_singleton _ _, List.forall_mem_singleton.2 ?_⟩
    refine tabular_array_iff.2 (List.forall_mem_cons.2 ⟨tabular_of_parts_eq_nil rfl, ?_⟩)
    exact List.forall_mem_cons.2
      ⟨tabular_of_parts_eq_nil rfl, List.forall_mem_singleton.2 (tabular_of_parts_eq_nil rfl)⟩
  have hleast : leastWord ≤ 9007199254740993 := by decide
  have hgreatest : 9007199254740993 ≤ greatestWord := by decide
  have hread : Json.ofText? u.jsonText = some u.toJson := by
    -- the text as a tree first, and then what the numerals in it denote
    let minusZero : Json.Numeral := ⟨true, ['0'], ['0'], none⟩
    let written : Json.Written := .object [([.char 'b'],
      .array [.numeral minusZero, .array [.numeral ⟨false, ['3'], [], none⟩], .null])]
    have hchars : u.jsonText.toList = ['\x7b', '"', 'b', '"', ':', '[', '-', '0', '.', '0', ',', '[',
        '3', ']', ',', 'n', 'u', 'l', 'l', ']', '\x7d'] := by decide +kernel
    have hwritten : Json.Written.ofText? u.jsonText = some written := by
      rw [Json.Written.ofText?, hchars]
      rfl
    have hinteger : minusZero.integer? = none := by decide +kernel
    have hnumber : minusZero.number? = some (.signedZero true) := by decide +kernel
    have hminusZero : minusZero.denoted? = some (.number (.signedZero true)) := by
      rw [Json.Numeral.denoted?, hinteger, hnumber]
      rfl
    have hdenoted : written.denoted? = some u.toJson := by
      simp only [written, Json.Written.denoted?, Json.Written.denotedFields?,
        Json.Written.denotedItems?, hminusZero]
      rfl
    rw [Json.ofText?, hwritten]
    exact hdenoted
  exact ⟨⟨hv, hback.2 hv⟩, ⟨hleast, hgreatest, hnearest _ hleast hgreatest⟩, hu, hread,
    htext hu Json.ofText? hread⟩

end Value
end ExprLang
