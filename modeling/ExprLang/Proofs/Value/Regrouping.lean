import ExprLang.Evaluation
import ExprLang.Expr.Grouping
import ExprLang.Proofs.Entries.Merging
import ExprLang.Proofs.Outcome
import ExprLang.Proofs.Value.Order

/-!
# Regrouping and the values of a chain

Where `+`, `*`, `&&` or `||` is chained with itself, grouping turns `a op (b op c)` into
`(a op b) op c`.  For `&&` and `||` this is harmless.  For `*` it is as harmless as it is for rounded
products.  For `+` it may change the result altogether, since `+` adds or joins according to its two
operands: `1 + (2 + "x")` joins twice, and `(1 + 2) + "x"` adds first.

What does not change is whether there is a result (`agree_regrouped_iff`, first part).  An operand
takes part in a sum as a `Summand`, and sums are computed on these (`add_toOption`).  Arrays can be
added to arrays only, maps to maps only, and strings, numbers, booleans and null to each other; then
so can the sum.

The results agree just if `GroupingsAgree`.  Joining arrays, merging maps and joining strings are
associative, so there is a condition only in three cases:

* if all three operands are numbers or convert to them, the two rounded sums have to be equal;
* if only the first or only the last is a string, the sum of the other two has to be written as
  these are, one after the other.
-/

namespace ExprLang

/-! ## Agreement of outcomes -/

/-- Both outcomes are faults, or both are values and these are equal. -/
def Outcome.Agree : Outcome Value → Outcome Value → Prop
  | .ok v, .ok w => v.equal w = true
  | .error _, .error _ => True
  | _, _ => False

instance (o o' : Outcome Value) : Decidable (Outcome.Agree o o') :=
  match o, o' with
  | .ok v, .ok w => inferInstanceAs (Decidable (v.equal w = true))
  | .error _, .error _ => .isTrue trivial
  | .ok _, .error _ | .error _, .ok _ => .isFalse id

theorem Outcome.agree_refl (o : Outcome Value) : Outcome.Agree o o := by
  cases o with
  | ok v => exact Value.equal_refl v
  | error f => trivial

theorem Outcome.agree_iff {o o' : Outcome Value} :
    Outcome.Agree o o' ↔ Option.Rel (fun v w => v.equal w = true) o.toOption o'.toOption := by
  cases o with
  | ok v =>
    cases o' with
    | ok w => exact ⟨fun h => .some h, fun | .some h => h⟩
    | error f => exact ⟨False.elim, fun h => nomatch h⟩
  | error f =>
    cases o' with
    | ok w => exact ⟨False.elim, fun h => nomatch h⟩
    | error g => exact ⟨fun _ => .none, fun _ => trivial⟩

namespace Value

/-- The keys of a map increase. -/
def SortedKeys (v : Value) : Prop := ∀ entries, v.payload = .map entries → Entries.Sorted entries

/-- Maps are made of tables, and so their keys increase. -/
theorem sortedKeys_map_ofList (bindings : List (String × Value)) :
    (map (Entries.ofList bindings)).SortedKeys := by
  intro entries h
  rw [← Payload.map.inj h]
  exact Entries.sorted_ofList bindings

/-! ## Summands -/

/-- What a sum makes of an operand. -/
inductive Summand where
  | items (as : List Value)
  | entries (es : Entries Value)
  | text (s : String)
  /-- A number, and the text that stands for it where it is joined to a string. -/
  | scalar (x : Number) (s : String)
  /-- Nothing can be added to the operand. -/
  | nothing

/-- What a sum makes of the value. -/
def summand (v : Value) : Summand :=
  match v.payload with
  | .array as => .items as
  | .map es => .entries es
  | .string s => .text s
  | .number x => .scalar x x.plainText
  | .boolean b => .scalar (.ofInt (if b then 1 else 0)) (if b then "true" else "false")
  | .null => .scalar .zero ""
  | .range _ | .undefined => .nothing

namespace Summand

/-- The sum of two summands, as one. -/
def add : Summand → Summand → Option Summand
  | items as, items bs => some (items (as ++ bs))
  | entries es, entries fs => some (entries (Entries.merge es fs))
  | text s, text t | text s, scalar _ t | scalar _ s, text t => some (text (s ++ t))
  | scalar x _, scalar y _ => some (scalar (x.add y) (x.add y).plainText)
  | _, _ => none

/-- The value of a sum. -/
def value : Summand → Value
  | items as => .array as
  | entries es => .map es
  | text s => .string s
  | scalar x _ => .number x
  | nothing => .undefined

/-- A sum takes part in another one as its value does. -/
theorem summand_value {s t u : Summand} (h : s.add t = some u) : u.value.summand = u := by
  cases s <;> cases t <;> cases h <;> rfl

end Summand

/-- **Values are added as summands**, up to what a fault says. -/
theorem add_toOption (v w : Value) :
    (v.add w).toOption = (v.summand.add w.summand).map Summand.value := by
  rcases v with ⟨a, p⟩
  rcases w with ⟨b, q⟩
  cases a <;> cases b <;> rfl

theorem add_right_toOption (a b c : Value) :
    (b.add c >>= a.add).toOption =
      ((b.summand.add c.summand).bind a.summand.add).map Summand.value := by
  rw [Outcome.toOption_bind, add_toOption]
  cases h : b.summand.add c.summand with
  | none => rfl
  | some u =>
    show (a.add u.value).toOption = _
    rw [add_toOption, Summand.summand_value h]
    rfl

theorem add_left_toOption (a b c : Value) :
    (a.add b >>= fun v => v.add c).toOption =
      ((a.summand.add b.summand).bind fun u => u.add c.summand).map Summand.value := by
  rw [Outcome.toOption_bind, add_toOption]
  cases h : a.summand.add b.summand with
  | none => rfl
  | some u =>
    show (u.value.add c).toOption = _
    rw [add_toOption, Summand.summand_value h]
    rfl

theorem payload_of_summand_eq_entries {v : Value} {es : Entries Value}
    (h : v.summand = .entries es) : v.payload = .map es := by
  rcases v with ⟨a, p⟩
  cases a <;> cases h
  rfl

/-! ## Groupings of a sum -/

/-- What has to hold for the two groupings of a sum to be equal. -/
def SumsAgree : Summand → Summand → Summand → Prop
  | .scalar x _, .scalar y _, .scalar z _ => (x.add (y.add z)).order ((x.add y).add z) = .eq
  | .text _, .scalar y s, .scalar z t => (y.add z).plainText = s ++ t
  | .scalar x s, .scalar y t, .text _ => (x.add y).plainText = s ++ t
  | _, _, _ => True

/-- Either grouping of a sum has a result if the other one does. -/
theorem Summand.isSome_add_add (a b c : Summand) :
    ((b.add c).bind a.add).isSome = ((a.add b).bind fun u => u.add c).isSome := by
  cases a <;> cases b <;> cases c <;> rfl

theorem string_equal_iff {s t : String} : (string s).equal (string t) = true ↔ s = t := by
  rw [equal_iff]
  exact ⟨fun h => Payload.string.inj (congrArg payload h), fun h => by rw [h]⟩

theorem number_equal_iff {x y : Number} :
    (number x).equal (number y) = true ↔ x.order y = .eq := by
  rw [equal, beq_iff_eq]
  rfl

/-- **The groupings of a sum agree just if `SumsAgree`.** -/
theorem Summand.rel_add_add_iff (a b c : Summand)
    (ha : ∀ es, a = .entries es → Entries.Sorted es)
    (hb : ∀ es, b = .entries es → Entries.Sorted es)
    (hc : ∀ es, c = .entries es → Entries.Sorted es) :
    Option.Rel (fun v w : Value => v.equal w = true) (((b.add c).bind a.add).map value)
      (((a.add b).bind fun u => u.add c).map value) ↔ SumsAgree a b c := by
  -- in all but ten cases neither grouping has a result
  cases a <;> cases b <;> cases c <;> try exact iff_of_true .none trivial
  case items.items.items as bs cs =>
    refine iff_of_true (.some ?_) trivial
    rw [List.append_assoc]
    exact equal_refl _
  case entries.entries.entries es fs gs =>
    refine iff_of_true (.some ?_) trivial
    rw [Entries.merge_assoc (ha es rfl) (hb fs rfl) (hc gs rfl)]
    exact equal_refl _
  case scalar.scalar.scalar x s y t z u => exact Option.rel_some_some.trans number_equal_iff
  case text.scalar.scalar s y t z u =>
    refine Option.rel_some_some.trans (string_equal_iff.trans ?_)
    rw [String.append_assoc, String.append_right_inj]
    rfl
  case scalar.scalar.text x s y t u =>
    refine Option.rel_some_some.trans (string_equal_iff.trans ?_)
    rw [← String.append_assoc, String.append_left_inj]
    exact eq_comm
  -- the other five join three strings
  all_goals
    refine iff_of_true (.some ?_) trivial
    exact string_equal_iff.2 String.append_assoc.symm

/-! ## Groupings of a product -/

theorem arithmetic_toOption (op : BinaryOp) (f : Number → Number → Number) (v w : Value) :
    (arithmetic op f v w).toOption =
      v.number?.bind fun x => w.number?.map fun y => number (f x y) := by
  rw [arithmetic, bothNumbers, toNumber, toNumber]
  cases v.number? with
  | none => rfl
  | some x =>
    cases w.number? with
    | none => rfl
    | some y => rfl

theorem mul_right_toOption (a b c : Value) :
    (b.mul c >>= a.mul).toOption =
      a.number?.bind fun x => b.number?.bind fun y => c.number?.map fun z =>
        number (x.mul (y.mul z)) := by
  rw [Outcome.toOption_bind, mul, arithmetic_toOption]
  cases b.number? with
  | none => cases a.number? <;> rfl
  | some y =>
    cases c.number? with
    | none => cases a.number? <;> rfl
    | some z =>
      show (arithmetic .mul Number.mul a (number (y.mul z))).toOption = _
      rw [arithmetic_toOption]
      rfl

theorem mul_left_toOption (a b c : Value) :
    (a.mul b >>= fun v => v.mul c).toOption =
      a.number?.bind fun x => b.number?.bind fun y => c.number?.map fun z =>
        number ((x.mul y).mul z) := by
  rw [Outcome.toOption_bind, mul, arithmetic_toOption]
  cases a.number? with
  | none => rfl
  | some x =>
    cases b.number? with
    | none => rfl
    | some y =>
      show (arithmetic .mul Number.mul (number (x.mul y)) c).toOption = _
      rw [arithmetic_toOption]
      rfl

/-! ## Regrouping -/

/-- The result of `a parent (b child c)`. -/
def groupedRight (s : Settings) (parent child : BinaryOp) (a b c : Value) : Outcome Value := do
  let v ← child.apply s b c
  parent.apply s a v

/-- The result of `(a parent b) child c`. -/
def groupedLeft (s : Settings) (parent child : BinaryOp) (a b c : Value) : Outcome Value := do
  let v ← parent.apply s a b
  child.apply s v c

/-- What has to hold of three operands for the groupings of a chain of one operator to agree. -/
def GroupingsAgree (op : BinaryOp) (a b c : Value) : Prop :=
  match op with
  | .add => SumsAgree a.summand b.summand c.summand
  | .mul => ∀ x y z, a.number? = some x → b.number? = some y → c.number? = some z →
      (x.mul (y.mul z)).order ((x.mul y).mul z) = .eq
  | _ => True

variable {s : Settings} {a b c : Value}

theorem exists_grouped_add_iff :
    (∃ v, groupedRight s .add .add a b c = .ok v) ↔ ∃ v, groupedLeft s .add .add a b c = .ok v := by
  rw [Outcome.exists_eq_ok_iff, Outcome.exists_eq_ok_iff]
  show (b.add c >>= a.add).toOption.isSome = true ↔
    (a.add b >>= fun v => v.add c).toOption.isSome = true
  rw [add_right_toOption, add_left_toOption, Option.isSome_map, Option.isSome_map,
    Summand.isSome_add_add]

theorem agree_grouped_add_iff (ha : a.SortedKeys) (hb : b.SortedKeys) (hc : c.SortedKeys) :
    Outcome.Agree (groupedRight s .add .add a b c) (groupedLeft s .add .add a b c) ↔
      GroupingsAgree .add a b c := by
  rw [Outcome.agree_iff]
  show Option.Rel _ (b.add c >>= a.add).toOption (a.add b >>= fun v => v.add c).toOption ↔ _
  rw [add_right_toOption, add_left_toOption]
  exact Summand.rel_add_add_iff _ _ _ (fun es h => ha es (payload_of_summand_eq_entries h))
    (fun es h => hb es (payload_of_summand_eq_entries h))
    (fun es h => hc es (payload_of_summand_eq_entries h))

theorem exists_grouped_mul_iff :
    (∃ v, groupedRight s .mul .mul a b c = .ok v) ↔ ∃ v, groupedLeft s .mul .mul a b c = .ok v := by
  rw [Outcome.exists_eq_ok_iff, Outcome.exists_eq_ok_iff]
  show (b.mul c >>= a.mul).toOption.isSome = true ↔
    (a.mul b >>= fun v => v.mul c).toOption.isSome = true
  rw [mul_right_toOption, mul_left_toOption]
  cases a.number? <;> cases b.number? <;> cases c.number? <;> rfl

theorem agree_grouped_mul_iff :
    Outcome.Agree (groupedRight s .mul .mul a b c) (groupedLeft s .mul .mul a b c) ↔
      GroupingsAgree .mul a b c := by
  rw [Outcome.agree_iff, GroupingsAgree]
  show Option.Rel _ (b.mul c >>= a.mul).toOption (a.mul b >>= fun v => v.mul c).toOption ↔ _
  rw [mul_right_toOption, mul_left_toOption]
  cases a.number? with
  | none => exact iff_of_true .none (fun _ _ _ h => nomatch h)
  | some x =>
    cases b.number? with
    | none => exact iff_of_true .none (fun _ _ _ _ h => nomatch h)
    | some y =>
      cases c.number? with
      | none => exact iff_of_true .none (fun _ _ _ _ _ h => nomatch h)
      | some z =>
        refine Option.rel_some_some.trans (number_equal_iff.trans ⟨?_, fun h => h x y z rfl rfl rfl⟩)
        rintro h _ _ _ ⟨⟩ ⟨⟩ ⟨⟩
        exact h

/-- Truth has no rounding and converts everything, so both groupings give the same boolean. -/
theorem groupedRight_and : groupedRight s .and .and a b c = groupedLeft s .and .and a b c :=
  congrArg (fun t => Except.ok (boolean t)) (Bool.and_assoc a.truthy b.truthy c.truthy).symm

theorem groupedRight_or : groupedRight s .or .or a b c = groupedLeft s .or .or a b c :=
  congrArg (fun t => Except.ok (boolean t)) (Bool.or_assoc a.truthy b.truthy c.truthy).symm

/-- Only a chain of one operator is regrouped. -/
theorem eq_of_regroupable {parent child : BinaryOp} (h : Expr.regroupable parent child = true) :
    child = parent := by
  have hall : ∀ p ∈ BinaryOp.all, ∀ c ∈ BinaryOp.all, Expr.regroupable p c = true → c = p := by
    decide
  exact hall parent parent.mem_all child child.mem_all h

/-- **Regrouping a chain of one operator** does not change whether there is a result, and does not
change the result just if the groupings of the three operands agree. -/
theorem agree_regrouped_iff (s : Settings) {parent child : BinaryOp}
    (h : Expr.regroupable parent child = true) {a b c : Value} (ha : a.SortedKeys)
    (hb : b.SortedKeys) (hc : c.SortedKeys) :
    child = parent ∧
    ((∃ v, groupedRight s parent child a b c = .ok v) ↔
      ∃ v, groupedLeft s parent child a b c = .ok v) ∧
    (Outcome.Agree (groupedRight s parent child a b c) (groupedLeft s parent child a b c) ↔
      GroupingsAgree parent a b c) := by
  obtain rfl := eq_of_regroupable h
  refine ⟨rfl, ?_⟩
  cases child with
  | add => exact ⟨exists_grouped_add_iff, agree_grouped_add_iff ha hb hc⟩
  | mul => exact ⟨exists_grouped_mul_iff, agree_grouped_mul_iff⟩
  | and =>
    rw [groupedRight_and]
    exact ⟨Iff.rfl, iff_of_true (Outcome.agree_refl _) trivial⟩
  | or =>
    rw [groupedRight_or]
    exact ⟨Iff.rfl, iff_of_true (Outcome.agree_refl _) trivial⟩
  | _ => exact absurd h (by decide)

/-- Three maps with common keys. -/
theorem agree_regrouped_maps :
    let a := map (Entries.ofList [("x", integer 1)])
    let b := map (Entries.ofList [("y", integer 2), ("x", integer 3)])
    let c := map (Entries.ofList [("y", null)])
    Expr.regroupable .add .add = true ∧ a.SortedKeys ∧ b.SortedKeys ∧ c.SortedKeys ∧
      Outcome.Agree (groupedRight {} .add .add a b c) (groupedLeft {} .add .add a b c) := by
  intro a b c
  have ha : a.SortedKeys := sortedKeys_map_ofList _
  have hb : b.SortedKeys := sortedKeys_map_ofList _
  have hc : c.SortedKeys := sortedKeys_map_ofList _
  have hadd : Expr.regroupable .add .add = true := by decide
  obtain ⟨_, _, hagree⟩ := agree_regrouped_iff {} hadd ha hb hc
  exact ⟨hadd, ha, hb, hc, hagree.2 trivial⟩

/-- `1 + (2 + "x")` joins twice, but `(1 + 2) + "x"` adds first. -/
theorem not_agree_regrouped_add :
    Expr.regroupable .add .add = true ∧
    (groupedRight {} .add .add (integer 1) (integer 2) (string "x")).toOption.bind string? =
      some "12x" ∧
    (groupedLeft {} .add .add (integer 1) (integer 2) (string "x")).toOption.bind string? =
      some "3x" ∧
    ¬ Outcome.Agree (groupedRight {} .add .add (integer 1) (integer 2) (string "x"))
      (groupedLeft {} .add .add (integer 1) (integer 2) (string "x")) := by
  decide +kernel

-- one product exceeds the greatest number on the way, the other does not
example : ¬ Outcome.Agree (groupedRight {} .mul .mul (string "1e308") (integer 10) (string "0.1"))
    (groupedLeft {} .mul .mul (string "1e308") (integer 10) (string "0.1")) := by
  decide +kernel

end Value
end ExprLang
