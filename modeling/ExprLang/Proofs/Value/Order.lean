import ExprLang.Proofs.Number.Order
import ExprLang.Value.Order

/-!
# The laws of the order of values

The order of values is total, and two values are equal in it just if they have the same *canonical
form*: the value at no position, at any depth, and without the sign of zeros.  (There is only one NaN
among the numbers, so nothing has to be dropped of it.)

The order recurs through arrays and through the entries of maps, where it is lexicographic, so the
laws of a value have to come from those of its elements, and of these only.  `LawfulAt cmp canon a`
says what is known of a single element `a`:

* comparing the other way around gives the opposite result;
* `cmp a c` is found by comparing through any `b` in between, and as a result, not as an inequality:
  it is `(cmp a b).then (cmp b c)`.  In this form the law passes from elements to lists, where
  transitivity alone would need the law at the other elements, too;
* what is equal to `a` has its canonical form, and only that.

`LawfulAt.pair` and `LawfulAt.list` build comparisons of entries and of lists from it.
`Wraps.lawfulAt` covers the eight kinds at once: two values of one kind are compared by their
contents, and values of different kinds by the ranks of these.  Then `lawfulAt_order` is an induction
with a line for each kind.
-/

namespace ExprLang

/-! ## Laws at an element -/

/-- The laws of a comparison as far as one element is concerned. -/
structure LawfulAt {α : Type} (cmp : α → α → Ordering) (canon : α → α) (a : α) : Prop where
  swap : ∀ b, cmp a b = (cmp b a).swap
  through : ∀ b c, (cmp a b).isLE = true → (cmp b c).isLE = true →
    cmp a c = (cmp a b).then (cmp b c)
  eq_iff : ∀ b, cmp a b = .eq ↔ canon a = canon b

/-- Where a first comparison goes through and a second one does, so does the first refined by the
second. -/
theorem then_through {o₁ o₂ o r₁ r₂ r : Ordering}
    (h : o₁.isLE = true → o₂.isLE = true → o = o₁.then o₂)
    (h' : r₁.isLE = true → r₂.isLE = true → r = r₁.then r₂)
    (h₁ : (o₁.then r₁).isLE = true) (h₂ : (o₂.then r₂).isLE = true) :
    o.then r = (o₁.then r₁).then (o₂.then r₂) := by
  cases o₁ with
  | lt =>
    have ho : o = .lt := h rfl (by cases o₂ <;> simp_all [Ordering.then])
    rw [ho]
    rfl
  | eq =>
    cases o₂ with
    | lt =>
      rw [h rfl rfl]
      -- the second comparison does not contradict
      cases r₁ with
      | lt => rfl
      | eq => rfl
      | gt => cases h₁
    | eq =>
      rw [h rfl rfl]
      exact h' h₁ h₂
    | gt => cases h₂
  | gt => cases h₁

namespace LawfulAt
variable {α β : Type}

/-- A total order is lawful everywhere. -/
theorem of_transCmp {cmp : α → α → Ordering} [Std.TransCmp cmp] {canon : α → α}
    (h : ∀ a b, cmp a b = .eq ↔ canon a = canon b) (a : α) : LawfulAt cmp canon a where
  swap b := Std.OrientedCmp.eq_swap
  through b c hab hbc := by
    cases hab' : cmp a b with
    | lt => exact Std.TransCmp.lt_of_lt_of_isLE hab' hbc
    | eq => exact Std.TransCmp.congr_left hab'
    | gt => rw [hab'] at hab; cases hab
  eq_iff := h a

theorem of_lawfulEqOrd [Ord α] [Std.TransOrd α] [Std.LawfulEqOrd α] (a : α) :
    LawfulAt compare id a :=
  of_transCmp (fun _ _ => Std.LawfulEqOrd.compare_eq_iff_eq) a

/-- The one element of a type without others is equal to itself. -/
theorem of_subsingleton [Subsingleton α] (a : α) : LawfulAt (fun _ _ => .eq) id a :=
  ⟨fun _ => rfl, fun _ _ _ _ => rfl, fun b => ⟨fun _ => Subsingleton.elim a b, fun _ => rfl⟩⟩

/-- Pairs, the first component being compared first. -/
theorem pair {cmp : α → α → Ordering} {cmp' : β → β → Ordering} {canon : α → α} {canon' : β → β}
    {a : α × β} (h : LawfulAt cmp canon a.1) (h' : LawfulAt cmp' canon' a.2) :
    LawfulAt (fun x y => (cmp x.1 y.1).then (cmp' x.2 y.2)) (Prod.map canon canon') a where
  swap b := by rw [h.swap, h'.swap, Ordering.swap_then]
  through b c hab hbc := then_through (h.through b.1 c.1) (h'.through b.2 c.2) hab hbc
  eq_iff b := by
    rw [Ordering.then_eq_eq, h.eq_iff, h'.eq_iff, Prod.ext_iff]
    rfl

/-- Lists, the first difference deciding. -/
theorem list {cmp : α → α → Ordering} {canon : α → α} {as : List α}
    (h : ∀ a ∈ as, LawfulAt cmp canon a) :
    LawfulAt (List.compareLex cmp) (List.map canon) as := by
  induction as with
  | nil =>
    refine ⟨fun bs => ?_, fun bs cs hab hbc => ?_, fun bs => ?_⟩
    · cases bs <;> rfl
    · cases bs with
      | nil => rfl
      | cons b bs =>
        cases cs with
        | nil => cases hbc
        | cons c cs => rfl
    · cases bs <;> simp [List.compareLex]
  | cons a as ih =>
    have ha : LawfulAt cmp canon a := h a List.mem_cons_self
    have has := ih fun b hb => h b (List.mem_cons_of_mem a hb)
    refine ⟨fun bs => ?_, fun bs cs hab hbc => ?_, fun bs => ?_⟩
    · cases bs with
      | nil => rfl
      | cons b bs =>
        rw [List.compareLex_cons_cons, List.compareLex_cons_cons, ha.swap, has.swap,
          Ordering.swap_then]
    · cases bs with
      | nil => cases hab
      | cons b bs =>
        cases cs with
        | nil => cases hbc
        | cons c cs =>
          rw [List.compareLex_cons_cons] at hab hbc ⊢
          rw [List.compareLex_cons_cons, List.compareLex_cons_cons]
          exact then_through (ha.through b c) (has.through bs cs) hab hbc
    · cases bs with
      | nil => simp [List.compareLex]
      | cons b bs =>
        rw [List.compareLex_cons_cons, Ordering.then_eq_eq, ha.eq_iff, has.eq_iff, List.map_cons,
          List.map_cons, List.cons_eq_cons]

end LawfulAt

namespace Value

/-! ## Canonical forms -/

mutual

/-- The value at no position, at any depth, with each of its numbers put through a function. -/
def mapNumbers (f : Number → Number) : Value → Value
  | ⟨.boolean b, _⟩ => boolean b
  | ⟨.string s, _⟩ => string s
  | ⟨.number x, _⟩ => number (f x)
  | ⟨.array items, _⟩ => array (mapItemNumbers f items)
  | ⟨.map entries, _⟩ => map (mapEntryNumbers f entries)
  | ⟨.range integers, _⟩ => range integers
  | ⟨.null, _⟩ => null
  | ⟨.undefined, _⟩ => undefined

/-- Several values, each with its numbers put through a function. -/
def mapItemNumbers (f : Number → Number) : List Value → List Value
  | [] => []
  | v :: rest => mapNumbers f v :: mapItemNumbers f rest

/-- Several entries, each with the numbers of its value put through a function. -/
def mapEntryNumbers (f : Number → Number) : List (String × Value) → List (String × Value)
  | [] => []
  | (key, v) :: rest => (key, mapNumbers f v) :: mapEntryNumbers f rest

end

/-- The value without its positions, at any depth. -/
def bare (v : Value) : Value := v.mapNumbers id

/-- The value without its positions, at any depth, and without the sign of zeros. -/
def canonical (v : Value) : Value := v.mapNumbers Number.unsignedZero

theorem mapItemNumbers_eq_map (f : Number → Number) (items : List Value) :
    mapItemNumbers f items = items.map (mapNumbers f) := by
  induction items with
  | nil => rfl
  | cons v rest ih => rw [mapItemNumbers, ih, List.map_cons]

theorem mapEntryNumbers_eq_map (f : Number → Number) (entries : List (String × Value)) :
    mapEntryNumbers f entries = entries.map (Prod.map id (mapNumbers f)) := by
  induction entries with
  | nil => rfl
  | cons e rest ih =>
    rw [mapEntryNumbers, ih, List.map_cons]
    rfl

theorem canonical_array (items : List Value) (p : Position) :
    canonical ⟨.array items, p⟩ = array (items.map canonical) :=
  congrArg array (mapItemNumbers_eq_map _ items)

theorem canonical_map (entries : List (String × Value)) (p : Position) :
    canonical ⟨.map entries, p⟩ = map (entries.map (Prod.map id canonical)) :=
  congrArg map (mapEntryNumbers_eq_map _ entries)

@[simp] theorem mapNumbers_kind (f : Number → Number) (v : Value) :
    (v.mapNumbers f).kind = v.kind := by
  rcases v with ⟨payload, p⟩
  cases payload <;> rfl

/-! ## The order, by kinds -/

/-- Entries are compared by their keys, and then by their values. -/
def orderEntry (x y : String × Value) : Ordering := (compare x.1 y.1).then (order x.2 y.2)

theorem orderItems_eq_compareLex (as bs : List Value) :
    orderItems as bs = List.compareLex order as bs := by
  induction as generalizing bs with
  | nil => cases bs <;> rfl
  | cons a as ih =>
    cases bs with
    | nil => rfl
    | cons b bs => rw [orderItems, ih, List.compareLex_cons_cons]

theorem orderEntries_eq_compareLex (as bs : List (String × Value)) :
    orderEntries as bs = List.compareLex orderEntry as bs := by
  induction as generalizing bs with
  | nil => cases bs <;> rfl
  | cons a as ih =>
    cases bs with
    | nil => rfl
    | cons b bs => rw [orderEntries, ih, List.compareLex_cons_cons, orderEntry]

/-- Values of different kinds are ordered as these are. -/
theorem order_of_kind_ne {v w : Value} (h : v.kind ≠ w.kind) :
    v.order w = compare v.kind.rank w.kind.rank := by
  rcases v with ⟨a, p⟩
  rcases w with ⟨b, q⟩
  -- of the 64 pairs of payloads, eight are of one kind
  cases a <;> cases b <;> try exact absurd rfl h
  all_goals rfl

theorem order_of_rank_lt {v w : Value} (h : v.kind.rank < w.kind.rank) : v.order w = .lt := by
  rw [order_of_kind_ne fun hkind => Nat.ne_of_lt h (congrArg Kind.rank hkind)]
  exact Nat.compare_eq_lt.2 h

theorem rank_le_of_isLE {v w : Value} (h : (v.order w).isLE = true) :
    v.kind.rank ≤ w.kind.rank := by
  by_cases hkind : v.kind = w.kind
  · exact Nat.le_of_eq (congrArg Kind.rank hkind)
  · rw [order_of_kind_ne hkind] at h
    exact Nat.isLE_compare.1 h

/-- What there is to know of a kind: its values are contents of type `α` wrapped into a payload,
they are compared by these, and made canonical in these. -/
structure Wraps {α : Type} (kind : Kind) (wrap : α → Payload Value) (cmp : α → α → Ordering)
    (canon : α → α) : Prop where
  kind_eq : ∀ a, (wrap a).kind = kind
  surjective : ∀ payload, payload.kind = kind → ∃ a, payload = wrap a
  injective : ∀ {a b}, wrap a = wrap b → a = b
  order_eq : ∀ a b p q, order ⟨wrap a, p⟩ ⟨wrap b, q⟩ = cmp a b
  canonical_eq : ∀ a p, canonical ⟨wrap a, p⟩ = ⟨wrap (canon a), .unknown⟩

/-- **The laws of a kind are those of its contents.** -/
theorem Wraps.lawfulAt {α : Type} {kind : Kind} {wrap : α → Payload Value}
    {cmp : α → α → Ordering} {canon : α → α} (hkind : Wraps kind wrap cmp canon) {a : α}
    (h : LawfulAt cmp canon a) (p : Position) : LawfulAt order canonical ⟨wrap a, p⟩ := by
  have hself : (⟨wrap a, p⟩ : Value).kind = kind := hkind.kind_eq a
  have hwrap : ∀ w : Value, w.kind = kind → ∃ b q, w = ⟨wrap b, q⟩ := by
    rintro ⟨payload, q⟩ hw
    obtain ⟨b, rfl⟩ := hkind.surjective payload hw
    exact ⟨b, q, rfl⟩
  refine ⟨fun w => ?_, fun w u hw hu => ?_, fun w => ?_⟩
  · by_cases hw : w.kind = kind
    · obtain ⟨b, q, rfl⟩ := hwrap w hw
      rw [hkind.order_eq, hkind.order_eq, h.swap]
    · have hne : (⟨wrap a, p⟩ : Value).kind ≠ w.kind := fun heq => hw (heq.symm.trans hself)
      rw [order_of_kind_ne hne, order_of_kind_ne hne.symm]
      exact Std.OrientedOrd.eq_swap
  · rcases Nat.lt_or_eq_of_le (rank_le_of_isLE hw) with hlt | heq
    · rw [order_of_rank_lt hlt, order_of_rank_lt (Nat.lt_of_lt_of_le hlt (rank_le_of_isLE hu))]
      rfl
    · rcases Nat.lt_or_eq_of_le (rank_le_of_isLE hu) with hlt' | heq'
      · rw [order_of_rank_lt hlt', order_of_rank_lt (heq ▸ hlt')]
        cases hfirst : order ⟨wrap a, p⟩ w with
        | lt => rfl
        | eq => rfl
        | gt => rw [hfirst] at hw; cases hw
      · -- all three are of one kind
        have hkindw : w.kind = kind := (Kind.rank_injective heq).symm.trans hself
        have hkindu : u.kind = kind := (Kind.rank_injective heq').symm.trans hkindw
        obtain ⟨b, q, rfl⟩ := hwrap w hkindw
        obtain ⟨c, r, rfl⟩ := hwrap u hkindu
        rw [hkind.order_eq] at hw hu ⊢
        rw [hkind.order_eq, hkind.order_eq]
        exact h.through b c hw hu
  · by_cases hw : w.kind = kind
    · obtain ⟨b, q, rfl⟩ := hwrap w hw
      rw [hkind.order_eq, h.eq_iff, hkind.canonical_eq, hkind.canonical_eq]
      exact ⟨fun hab => by rw [hab], fun hab => hkind.injective (congrArg Value.payload hab)⟩
    · have hne : (⟨wrap a, p⟩ : Value).kind ≠ w.kind := fun heq => hw (heq.symm.trans hself)
      rw [order_of_kind_ne hne, Nat.compare_eq_eq]
      refine ⟨fun hrank => absurd (Kind.rank_injective hrank) hne, fun hcanonical => ?_⟩
      have hkinds := congrArg Value.kind hcanonical
      rw [canonical, canonical, mapNumbers_kind, mapNumbers_kind] at hkinds
      exact absurd hkinds hne

theorem wraps_boolean : Wraps .boolean .boolean compare id where
  kind_eq _ := rfl
  surjective := by rintro ⟨⟩ h <;> cases h; exact ⟨_, rfl⟩
  injective := Payload.boolean.inj
  order_eq _ _ _ _ := rfl
  canonical_eq _ _ := rfl

theorem wraps_string : Wraps .string .string compare id where
  kind_eq _ := rfl
  surjective := by rintro ⟨⟩ h <;> cases h; exact ⟨_, rfl⟩
  injective := Payload.string.inj
  order_eq _ _ _ _ := rfl
  canonical_eq _ _ := rfl

theorem wraps_number : Wraps .number .number Number.order Number.unsignedZero where
  kind_eq _ := rfl
  surjective := by rintro ⟨⟩ h <;> cases h; exact ⟨_, rfl⟩
  injective := Payload.number.inj
  order_eq _ _ _ _ := rfl
  canonical_eq _ _ := rfl

theorem wraps_array : Wraps .array .array (List.compareLex order) (List.map canonical) where
  kind_eq _ := rfl
  surjective := by rintro ⟨⟩ h <;> cases h; exact ⟨_, rfl⟩
  injective := Payload.array.inj
  order_eq a b _ _ := orderItems_eq_compareLex a b
  canonical_eq := canonical_array

theorem wraps_map :
    Wraps .map .map (List.compareLex orderEntry) (List.map (Prod.map id canonical)) where
  kind_eq _ := rfl
  surjective := by rintro ⟨⟩ h <;> cases h; exact ⟨_, rfl⟩
  injective := Payload.map.inj
  order_eq a b _ _ := orderEntries_eq_compareLex a b
  canonical_eq := canonical_map

theorem wraps_range : Wraps .range .range compare id where
  kind_eq _ := rfl
  surjective := by rintro ⟨⟩ h <;> cases h; exact ⟨_, rfl⟩
  injective := Payload.range.inj
  order_eq _ _ _ _ := rfl
  canonical_eq _ _ := rfl

theorem wraps_null : Wraps .null (fun _ : Unit => .null) (fun _ _ => .eq) id where
  kind_eq _ := rfl
  surjective := by rintro ⟨⟩ h <;> cases h; exact ⟨(), rfl⟩
  injective _ := rfl
  order_eq _ _ _ _ := rfl
  canonical_eq _ _ := rfl

theorem wraps_undefined : Wraps .undefined (fun _ : Unit => .undefined) (fun _ _ => .eq) id where
  kind_eq _ := rfl
  surjective := by rintro ⟨⟩ h <;> cases h; exact ⟨(), rfl⟩
  injective _ := rfl
  order_eq _ _ _ _ := rfl
  canonical_eq _ _ := rfl

/-- **The order is lawful at every value.** -/
theorem lawfulAt_order (v : Value) : LawfulAt order canonical v := by
  induction v using Value.induction with
  | boolean b p => exact wraps_boolean.lawfulAt (.of_lawfulEqOrd b) p
  | string s p => exact wraps_string.lawfulAt (.of_lawfulEqOrd s) p
  | number x p =>
    exact wraps_number.lawfulAt (.of_transCmp Number.order_eq_eq_iff x) p
  | array items p ih => exact wraps_array.lawfulAt (.list ih) p
  | map entries p ih =>
    exact wraps_map.lawfulAt (.list fun e he => .pair (.of_lawfulEqOrd e.1) (ih e he)) p
  | range integers p => exact wraps_range.lawfulAt (.of_lawfulEqOrd integers) p
  | null p => exact wraps_null.lawfulAt (.of_subsingleton ()) p
  | undefined p => exact wraps_undefined.lawfulAt (.of_subsingleton ()) p

instance : Std.TransCmp order where
  eq_swap := (lawfulAt_order _).swap _
  isLE_trans {a b c} hab hbc := by
    rw [(lawfulAt_order a).through b c hab hbc]
    cases h : order a b with
    | lt => rfl
    | eq => exact hbc
    | gt => rw [h] at hab; cases hab

/-- **Values are equal just if they have the same canonical form.** -/
theorem order_eq_eq_iff {v w : Value} : v.order w = .eq ↔ v.canonical = w.canonical :=
  (lawfulAt_order v).eq_iff w

theorem equal_iff {v w : Value} : v.equal w = true ↔ v.canonical = w.canonical := by
  rw [equal, beq_iff_eq, order_eq_eq_iff]

theorem equal_refl (v : Value) : v.equal v = true := equal_iff.2 rfl

/-! ## Positions -/

theorem mapNumbers_mapNumbers (f g : Number → Number) (v : Value) :
    (v.mapNumbers g).mapNumbers f = v.mapNumbers (f ∘ g) := by
  induction v using Value.induction with
  | array items p ih =>
    show array _ = array _
    rw [mapItemNumbers_eq_map, mapItemNumbers_eq_map, mapItemNumbers_eq_map, List.map_map]
    exact congrArg array (List.map_congr_left ih)
  | map entries p ih =>
    show map _ = map _
    rw [mapEntryNumbers_eq_map, mapEntryNumbers_eq_map, mapEntryNumbers_eq_map, List.map_map]
    refine congrArg map (List.map_congr_left fun e he => ?_)
    exact congrArg (Prod.mk e.1) (ih e he)
  | _ => rfl

theorem canonical_bare (v : Value) : v.bare.canonical = v.canonical :=
  mapNumbers_mapNumbers _ _ v

/-- **The order does not look at positions**, at any depth. -/
theorem order_bare (v w : Value) : v.bare.order w.bare = v.order w := by
  have hv : v.bare.order v = .eq := order_eq_eq_iff.2 (canonical_bare v)
  have hw : w.bare.order w = .eq := order_eq_eq_iff.2 (canonical_bare w)
  rw [Std.TransCmp.congr_left hv, Std.TransCmp.congr_right hw]

/-! ## The laws -/

/-- **The order is total and equality in it is sameness up to positions and the sign of zeros.** -/
theorem order_isTotal_and_equal_iff (a b c : Value) :
    a.order b = (b.order a).swap ∧
    ((a.order b).isLE = true → (b.order c).isLE = true → (a.order c).isLE = true) ∧
    (a.equal b = true ↔ a.order b = .eq) ∧
    Equivalence (fun v w : Value => v.equal w = true) ∧
    a.equal b = a.bare.equal b.bare ∧
    (a.equal b = true → a.order c = b.order c ∧ c.order a = c.order b) ∧
    (a.order b = .eq ↔ a.canonical = b.canonical) := by
  have hequal : a.equal b = true ↔ a.order b = .eq := by rw [equal, beq_iff_eq]
  refine ⟨Std.OrientedCmp.eq_swap, Std.TransCmp.isLE_trans, hequal, ?_, ?_, fun h => ?_,
    order_eq_eq_iff⟩
  · exact ⟨equal_refl, fun h => equal_iff.2 (equal_iff.1 h).symm,
      fun h h' => equal_iff.2 ((equal_iff.1 h).trans (equal_iff.1 h'))⟩
  · rw [equal, equal, order_bare]
  · exact ⟨Std.TransCmp.congr_left (hequal.1 h), Std.TransCmp.congr_right (hequal.1 h)⟩

/-- Two arrays that differ in a position and in the sign of a zero, before a longer one. -/
theorem order_zeros_below_longer :
    let a := array [⟨.number (.signedZero true), ⟨1, 2⟩⟩]
    let b := array [number .zero]
    let c := array [number .zero, null]
    (a.order b).isLE = true ∧ (b.order c).isLE = true ∧ a.equal b = true ∧
      (a.order c).isLE = true ∧ a.order c = b.order c := by
  intro a b c
  have hab : (a.order b).isLE = true := by rfl
  have hbc : (b.order c).isLE = true := by rfl
  have hequal : a.equal b = true := by rfl
  obtain ⟨_, htrans, _, _, _, hcongr, _⟩ := order_isTotal_and_equal_iff a b c
  exact ⟨hab, hbc, hequal, htrans hab hbc, (hcongr hequal).1⟩

end Value
end ExprLang
