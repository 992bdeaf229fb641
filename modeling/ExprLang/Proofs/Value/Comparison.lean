import ExprLang.Proofs.Text.ByteOrder
import ExprLang.Proofs.Value.Order
import ExprLang.Value.Operation

/-!
# The laws of comparison

The comparison of the language is not the order of values.  It converts, and it can fail.  Its rules
are tried one after the other, and which of them applies may depend on what a string reads as.  For
all that it keeps close to the order.

* The rules come down to two.  Two values of one kind, if these are no strings or numbers, are
  *structural*, and the order decides (`compare_of_structural`).  All other pairs go by
  `convertedOrder?`, by numbers if both values convert and otherwise by strings
  (`compare_of_not_structural`).
* What converts to a number converts to a string, too.  So `convertedOrder?` is defined just for
  two scalars (`isSome_convertedOrder?`), whichever of its two ways is taken.
* Both ways are symmetric, and so is the question which one is taken.  Hence comparing the other
  way around gives the opposite result (`compare_swap`).
* Equal values are of one kind, and if they are strings, they are the same string, which is equal
  to itself both as a number and as a text.
-/

namespace ExprLang

/-- Whether the values of a kind convert to strings. -/
def Kind.isScalar : Kind → Bool
  | boolean | string | number | null => true
  | array | map | range | undefined => false

namespace Value

/-! ## The two ways -/

/-- The comparison of two values after conversion: as numbers if both convert to numbers, else as
strings if both convert to strings. -/
def convertedOrder? (v w : Value) : Option Ordering :=
  match v.number?, w.number? with
  | some x, some y => some (x.order y)
  | _, _ =>
    match v.string?, w.string? with
    | some s, some t => some (Ord.compare s t)
    | _, _ => none

/-- Whether two values are compared without conversion. -/
def Structural (v w : Value) : Prop := v.kind = w.kind ∧ v.kind ≠ .string ∧ v.kind ≠ .number

instance (v w : Value) : Decidable (Structural v w) :=
  inferInstanceAs (Decidable (v.kind = w.kind ∧ v.kind ≠ .string ∧ v.kind ≠ .number))

variable {v w : Value}

theorem Structural.symm (h : Structural v w) : Structural w v :=
  ⟨h.1.symm, h.1 ▸ h.2.1, h.1 ▸ h.2.2⟩

/-- Two structural values are compared as they are ordered. -/
theorem compare_of_structural (h : Structural v w) : v.compare w = .ok (v.order w) := by
  obtain ⟨hkind, hstring, hnumber⟩ := h
  rcases v with ⟨a, p⟩
  rcases w with ⟨b, q⟩
  cases a <;> cases b <;> cases hkind
  case string => exact absurd rfl hstring
  case number => exact absurd rfl hnumber
  all_goals rfl

/-- Other values are compared after conversion. -/
theorem compare_of_not_structural (h : ¬ Structural v w) : v.compare w =
    match v.convertedOrder? w with
    | some o => .ok o
    | none => .error (.complain (.incomparable v.text v.kind w.text w.kind)) := by
  rw [compare]
  split
  case h_7 =>
    rw [convertedOrder?]
    cases v.number? <;> cases w.number? <;> cases v.string? <;> cases w.string? <;> rfl
  -- the other rules are for structural pairs
  all_goals
    rename_i hv hw
    refine absurd ⟨?_, ?_, ?_⟩ h <;> simp [kind, hv, hw, Payload.kind]

/-! ## Comparing the other way around -/

theorem convertedOrder?_swap (v w : Value) :
    w.convertedOrder? v = (v.convertedOrder? w).map Ordering.swap := by
  rw [convertedOrder?, convertedOrder?]
  cases v.number? with
  | some x =>
    cases w.number? with
    | some y => exact congrArg some Std.OrientedCmp.eq_swap
    | none =>
      cases v.string? <;> cases w.string? <;> try rfl
      exact congrArg some Std.OrientedOrd.eq_swap
  | none =>
    cases v.string? <;> cases w.string? <;> cases w.number? <;> try rfl
    all_goals exact congrArg some Std.OrientedOrd.eq_swap

/-- **Comparing the other way around gives the opposite result.** -/
theorem compare_swap {o : Ordering} (h : v.compare w = .ok o) : w.compare v = .ok o.swap := by
  by_cases hstructural : Structural v w
  · rw [compare_of_structural hstructural] at h
    have hswap : w.order v = (v.order w).swap := Std.OrientedCmp.eq_swap
    rw [compare_of_structural hstructural.symm, hswap, Except.ok.inj h]
  · have hstructural' : ¬ Structural w v := fun h' => hstructural h'.symm
    rw [compare_of_not_structural hstructural] at h
    rw [compare_of_not_structural hstructural', convertedOrder?_swap]
    cases hconverted : v.convertedOrder? w with
    | some o' =>
      rw [hconverted] at h
      rw [← Except.ok.inj h]
      rfl
    | none =>
      rw [hconverted] at h
      cases h

/-! ## What can be compared -/

/-- Just the scalars convert to strings. -/
theorem isSome_string? (v : Value) : v.string?.isSome = v.kind.isScalar := by
  rcases v with ⟨a, p⟩
  cases a <;> rfl

/-- What converts to a number is a scalar. -/
theorem isScalar_of_number? {x : Number} (h : v.number? = some x) : v.kind.isScalar = true := by
  rcases v with ⟨a, p⟩
  cases a <;> first | rfl | cases h

theorem isSome_convertedOrder? (v w : Value) :
    (v.convertedOrder? w).isSome = (v.kind.isScalar && w.kind.isScalar) := by
  have htexts : (match v.string?, w.string? with
      | some s, some t => some (Ord.compare s t)
      | _, _ => none : Option Ordering).isSome = (v.kind.isScalar && w.kind.isScalar) := by
    rw [← isSome_string? v, ← isSome_string? w]
    cases v.string? <;> cases w.string? <;> rfl
  rw [convertedOrder?]
  split
  · rename_i x y hx hy
    rw [isScalar_of_number? hx, isScalar_of_number? hy]
    rfl
  · exact htexts

/-- **Values of one kind and any two scalars can be compared**, and no others. -/
theorem exists_compare_iff (v w : Value) : (∃ o, v.compare w = .ok o) ↔
    v.kind = w.kind ∨ v.kind.isScalar = true ∧ w.kind.isScalar = true := by
  by_cases hstructural : Structural v w
  · exact iff_of_true ⟨_, compare_of_structural hstructural⟩ (.inl hstructural.1)
  · have hkind : v.kind = w.kind → v.kind.isScalar = true ∧ w.kind.isScalar = true := by
      intro hkind
      have hscalar : v.kind.isScalar = true := by
        by_cases hstring : v.kind = .string
        · rw [hstring]; rfl
        · by_cases hnumber : v.kind = .number
          · rw [hnumber]; rfl
          · exact absurd ⟨hkind, hstring, hnumber⟩ hstructural
      exact ⟨hscalar, hkind ▸ hscalar⟩
    have hconverted := isSome_convertedOrder? v w
    rw [compare_of_not_structural hstructural, or_iff_right_of_imp hkind, ← Bool.and_eq_true,
      ← hconverted]
    cases v.convertedOrder? w with
    | some o => exact iff_of_true ⟨o, rfl⟩ rfl
    | none => exact iff_of_false (fun ⟨_, h⟩ => nomatch h) Bool.false_ne_true

/-! ## Comparison and order -/

/-- Within a kind other than that of strings, comparison is the order. -/
theorem compare_of_kind_eq (h : v.kind = w.kind) (hstring : v.kind ≠ .string) :
    v.compare w = .ok (v.order w) := by
  by_cases hnumber : v.kind = .number
  · obtain ⟨x, hx⟩ := wraps_number.surjective v.payload hnumber
    obtain ⟨y, hy⟩ := wraps_number.surjective w.payload (h.symm.trans hnumber)
    rcases v with ⟨a, p⟩
    rcases w with ⟨b, q⟩
    cases hx
    cases hy
    rfl
  · exact compare_of_structural ⟨h, hstring, hnumber⟩

/-- Two strings are compared as the numbers that they read as, or else by their bytes. -/
theorem compare_strings (s t : String) (p q : Position) :
    compare ⟨.string s, p⟩ ⟨.string t, q⟩ = .ok
      (match Number.ofText? s, Number.ofText? t with
      | some x, some y => x.order y
      | _, _ => Ord.compare (Text.bytes s) (Text.bytes t)) := by
  have hrules : compare ⟨.string s, p⟩ ⟨.string t, q⟩ =
      match Number.ofText? s, Number.ofText? t with
      | some x, some y => .ok (x.order y)
      | _, _ => .ok (Ord.compare s t) := rfl
  rw [hrules, ← Text.compare_eq_compare_bytes]
  split <;> rfl

/-- **Equal values compare as equal.** -/
theorem compare_of_equal (h : v.equal w = true) : v.compare w = .ok .eq := by
  have hcanonical : v.canonical = w.canonical := equal_iff.1 h
  have hkind : v.kind = w.kind := by
    rw [← mapNumbers_kind Number.unsignedZero v, ← mapNumbers_kind Number.unsignedZero w]
    exact congrArg kind hcanonical
  by_cases hstring : v.kind = .string
  · obtain ⟨s, hs⟩ := wraps_string.surjective v.payload hstring
    obtain ⟨t, ht⟩ := wraps_string.surjective w.payload (hkind.symm.trans hstring)
    rcases v with ⟨a, p⟩
    rcases w with ⟨b, q⟩
    cases hs
    cases ht
    obtain rfl : s = t := Payload.string.inj (congrArg payload hcanonical)
    rw [compare_strings]
    split
    · rename_i x y hx hy
      rw [Option.some.inj (hx.symm.trans hy)]
      exact congrArg Except.ok Std.ReflCmp.compare_self
    · exact congrArg Except.ok Std.ReflCmp.compare_self
  · rw [compare_of_kind_eq hkind hstring, order_eq_eq_iff.2 hcanonical]

/-- **The laws of comparison.**  Comparing the other way around gives the opposite result; values of
one kind and any two scalars can be compared, and no others; comparison is the order within each
kind but that of strings, which are compared as numbers if both are numerals and by their bytes
otherwise; and equal values compare as equal. -/
theorem compare_swap_and_compare_of_equal (v w : Value) :
    (∀ o, v.compare w = .ok o ↔ w.compare v = .ok o.swap) ∧
    ((∃ o, v.compare w = .ok o) ↔
      v.kind = w.kind ∨ v.kind.isScalar = true ∧ w.kind.isScalar = true) ∧
    (v.kind = w.kind → v.kind ≠ .string → v.compare w = .ok (v.order w)) ∧
    (∀ s t, v.payload = .string s → w.payload = .string t →
      v.compare w = .ok
        (match Number.ofText? s, Number.ofText? t with
        | some x, some y => x.order y
        | _, _ => Ord.compare (Text.bytes s) (Text.bytes t))) ∧
    (v.equal w = true → v.compare w = .ok .eq) := by
  refine ⟨fun o => ⟨compare_swap, fun h => ?_⟩, exists_compare_iff v w, compare_of_kind_eq, ?_,
    compare_of_equal⟩
  · rw [compare_swap h, Ordering.swap_swap]
  · rcases v with ⟨a, p⟩
    rcases w with ⟨b, q⟩
    rintro s t rfl rfl
    exact compare_strings s t p q

/-- Two arrays that differ in a position and in the sign of a zero, and two numerals that name the
same number. -/
theorem compare_zeros_and_numerals :
    let v := array [⟨.number (.signedZero true), ⟨1, 2⟩⟩]
    let w := array [number .zero]
    let s := string "inf"
    let t := string "1e400"
    (v.kind = w.kind ∧ v.kind ≠ .string ∧ v.compare w = .ok (v.order w)) ∧
      (v.equal w = true ∧ v.compare w = .ok .eq) ∧
      s.payload = .string "inf" ∧ t.payload = .string "1e400" ∧ s.compare t = .ok .eq := by
  intro v w s t
  have hkind : v.kind = w.kind := rfl
  have hstring : v.kind ≠ .string := nofun
  have hequal : v.equal w = true := by rfl
  have hnumerals : (match Number.ofText? "inf", Number.ofText? "1e400" with
      | some x, some y => x.order y
      | _, _ => Ord.compare (Text.bytes "inf") (Text.bytes "1e400")) = .eq := by
    decide +kernel
  obtain ⟨_, _, horder, _, heq⟩ := compare_swap_and_compare_of_equal v w
  obtain ⟨_, _, _, hstrings, _⟩ := compare_swap_and_compare_of_equal s t
  refine ⟨⟨hkind, hstring, horder hkind hstring⟩, ⟨hequal, heq hequal⟩, rfl, rfl, ?_⟩
  rw [hstrings "inf" "1e400" rfl rfl, hnumerals]

end Value
end ExprLang
