import ExprLang.Proofs.Evaluation.RangeLimit
import ExprLang.Proofs.Number.Integers

/-!
# Ranges between numbers

The bounds of a range are numbers, or values that convert to numbers, and the range runs from the integer of
one to the integer of the other.  `Number.IsBound` says which integer that is without computing it: for a finite
number the one next to it on the way to zero, clamped to 64 bits; for an infinity the last 64-bit integer on its
side; and 0 for NaN.  There is one such integer for each number, and `truncated` finds it (`isBound_iff`).

The operator on values and evaluation without a limit make the same range
(`Expr.evaluate_range_unlimited`), and both fail just if one of the values has no number
(`Value.rangeTo_of_no_number`).  What the range holds is said by `Run.IsRun`.
-/

namespace ExprLang

/-! ## Bounds -/

namespace Number
open Magnitude (one)

/-- The integer next to a finite number on the way to zero.  A level counts units, and `one` is how many of
them make up the number 1. -/
structure IsIntegerPart (x : Number) (n : Int) : Prop where
  finite : x.isFinite = true
  le : n.natAbs * one ≤ x.level.natAbs
  lt : x.level.natAbs < (n.natAbs + 1) * one
  nonneg : 0 ≤ x.level → 0 ≤ n
  nonpos : x.level ≤ 0 → n ≤ 0

/-- The bound that a number is for a range. -/
inductive IsBound : Number → Int → Prop where
  | finite {x : Number} {n : Int} (h : x.IsIntegerPart n) : IsBound x (clampWord n)
  | infinite (negative : Bool) :
      IsBound (.infinite negative) (if negative then leastWord else greatestWord)
  | nan : IsBound .nan 0

variable {x : Number} {n : Int}

theorem natAbs_integerPart (x : Number) : x.integerPart.natAbs = x.level.natAbs / one := by
  rw [integerPart, Int.natAbs_tdiv, Int.natAbs_natCast]
  rfl

/-- The integer part is one. -/
theorem isIntegerPart_integerPart (h : x.isFinite = true) : x.IsIntegerPart x.integerPart := by
  have hone : (0 : Int) ≤ one := Int.natCast_nonneg one
  refine ⟨h, ?_, ?_, fun hlevel => Int.tdiv_nonneg hlevel hone, fun hlevel => ?_⟩
  · rw [natAbs_integerPart]
    exact Nat.div_mul_le_self _ _
  · rw [natAbs_integerPart, Nat.mul_comm]
    exact Nat.lt_mul_div_succ _ Magnitude.one_pos
  · have hopposite : 0 ≤ (-x.level).tdiv one := Int.tdiv_nonneg (by omega) hone
    rw [Int.neg_tdiv] at hopposite
    rw [integerPart]
    omega

/-- **There is no other integer part.** -/
theorem IsIntegerPart.eq_integerPart (h : x.IsIntegerPart n) : n = x.integerPart := by
  have hpart := isIntegerPart_integerPart h.finite
  have habs : n.natAbs = x.integerPart.natAbs := by
    rw [natAbs_integerPart]
    exact (Nat.div_eq_of_lt_le h.le h.lt).symm
  rcases Int.le_total 0 x.level with hlevel | hlevel
  · have hn := h.nonneg hlevel
    have hn' := hpart.nonneg hlevel
    omega
  · have hn := h.nonpos hlevel
    have hn' := hpart.nonpos hlevel
    omega

/-- **Every number is one bound**, and truncating finds it. -/
theorem isBound_iff : x.IsBound n ↔ n = x.truncated := by
  constructor
  · intro h
    cases h with
    | finite h => rw [truncated_eq h.finite, h.eq_integerPart]
    | infinite negative => rfl
    | nan => rfl
  · rintro rfl
    cases x with
    | nan => exact .nan
    | infinite negative => exact .infinite negative
    | finite s m =>
      rw [truncated_eq rfl]
      exact .finite (isIntegerPart_integerPart rfl)

end Number

/-! ## Ranges -/

namespace Value
variable {v w : Value} {x y : Number}

/-- Values that have numbers range between the bounds that these are. -/
theorem rangeTo_of_toNumber (hv : v.toNumber = .ok x) (hw : w.toNumber = .ok y) :
    v.rangeTo w = .ok (range (Run.inclusive x.truncated y.truncated)) := by
  rw [rangeTo, rangeBounds, bothNumbers, hv, hw]
  rfl

theorem reword_toNumber_of_no_number (h : ∀ x, v.toNumber ≠ .ok x) (c : Complaint) :
    Outcome.reword c v.toNumber = .error (.complain c) := by
  unfold toNumber at h ⊢
  cases hv : v.number? with
  | none => rfl
  | some x =>
    rw [hv] at h
    exact absurd rfl (h x)

/-- **Without a number there is no range**, and the complaint is that of the operator. -/
theorem rangeTo_of_no_number (h : (∀ x, v.toNumber ≠ .ok x) ∨ ∀ y, w.toNumber ≠ .ok y) :
    v.rangeTo w = .error (.complain (mismatch .range v w)) := by
  have hbounds : v.rangeBounds w = .error (.complain (mismatch .range v w)) := by
    rw [rangeBounds, bothNumbers]
    cases hv : v.toNumber with
    | error f =>
      have hnone : ∀ x, v.toNumber ≠ .ok x := by
        intro x hx
        rw [hv] at hx
        cases hx
      rw [← hv, reword_toNumber_of_no_number hnone]
      rfl
    | ok x =>
      have hw : ∀ y, w.toNumber ≠ .ok y := h.resolve_left fun hnone => hnone x hv
      rw [reword_toNumber_of_no_number hw]
      rfl
  rw [rangeTo, hbounds]
  rfl

theorem range_unlimited_eq_rangeTo (v w : Value) : Settings.unlimited.range v w = v.rangeTo w := by
  rw [rangeTo]
  cases h : v.rangeBounds w with
  | error f => exact Settings.range_of_rangeBounds_eq_error h _
  | ok bounds => exact Settings.range_unlimited h

end Value

/-- **Without a limit a range node gives what the operator gives**, located at the node. -/
theorem Expr.evaluate_range_unlimited {left right : Expr} {env : Environment} {v w : Value}
    (hleft : left.evaluate .unlimited env = .ok v) (hright : right.evaluate .unlimited env = .ok w)
    (p : Position) :
    (binary left .range right p).evaluate .unlimited env = Outcome.located p (v.rangeTo w) := by
  rw [evaluate, hleft, hright, ← Value.range_unlimited_eq_rangeTo]
  rfl

/-- **A range is the run between its bounds.**  Whatever two integers are the bounds, the run starts at one
and ends at the other, by steps of 1 up or down, it holds what lies between them, and in the other direction it
is reversed.  Its length, which
computed in 64-bit words is the same, is the number of its elements, capped.  Two values range between the
bounds that their numbers are, in the operator as in evaluation without a limit, and if one of them has no
number, both fail. -/
theorem Value.rangeTo_isRun_and_length :
    (∀ first last, Run.IsRun first last (Run.inclusive first last) ∧
      (∀ n, n ∈ Run.inclusive first last ↔ min first last ≤ n ∧ n ≤ max first last) ∧
      Run.inclusive last first = (Run.inclusive first last).reverse) ∧
    (∀ first last : Int64,
      Run.inclusiveLength first.toInt last.toInt =
        min (Run.inclusive first.toInt last.toInt).length Run.lengthCap ∧
      (Run.wordLength first last).toNat = Run.inclusiveLength first.toInt last.toInt) ∧
    ∀ v w : Value,
      (∀ x y, v.toNumber = .ok x → w.toNumber = .ok y →
        ∃ first last, x.IsBound first ∧ y.IsBound last ∧
          v.rangeTo w = .ok (range (Run.inclusive first last))) ∧
      ((∀ x, v.toNumber ≠ .ok x) ∨ (∀ y, w.toNumber ≠ .ok y) →
        v.rangeTo w = .error (.complain (mismatch .range v w))) ∧
      ∀ left right env p, left.evaluate .unlimited env = .ok v →
        right.evaluate .unlimited env = .ok w →
          (Expr.binary left .range right p).evaluate .unlimited env =
            Outcome.located p (v.rangeTo w) := by
  refine ⟨fun first last => ?_, fun first last => ?_, fun v w => ⟨?_, ?_, ?_⟩⟩
  · exact ⟨Run.isRun_inclusive first last, fun _ => Run.mem_inclusive_iff,
      (Run.reverse_inclusive first last).symm⟩
  · refine ⟨?_, Run.toNat_wordLength first last⟩
    rw [Run.inclusiveLength, Run.length_inclusive]
  · exact fun x y hv hw => ⟨_, _, Number.isBound_iff.2 rfl, Number.isBound_iff.2 rfl,
      rangeTo_of_toNumber hv hw⟩
  · exact rangeTo_of_no_number
  · exact fun left right env p hleft hright => Expr.evaluate_range_unlimited hleft hright p

/-- A text and NaN are bounds: the range runs down from the integer part of one to 0.  The undefined value is
none. -/
theorem Value.rangeTo_isRun_of_text_and_nan :
    let v := string "3.7"
    let w := number .nan
    let node := fun v : Value =>
      Expr.binary (.literal v .unknown) .range (.literal w .unknown) ⟨1, 4⟩
    (∃ x y, v.toNumber = .ok x ∧ w.toNumber = .ok y) ∧
      (node v).evaluate .unlimited .empty = .ok ⟨.range [3, 2, 1, 0], ⟨1, 4⟩⟩ ∧
      (∀ x, undefined.toNumber ≠ .ok x) ∧
      (node undefined).evaluate .unlimited .empty =
        .error ⟨.evaluation (.binary .range .undefined .number), some ⟨1, 4⟩⟩ := by
  intro v w node
  have hpart : (v.toNumber.toOption.map Number.truncated) = some 3 := by decide +kernel
  obtain ⟨x, hx, hbound⟩ := Option.map_eq_some_iff.1 hpart
  have hv : v.toNumber = .ok x := Outcome.toOption_eq_some_iff.1 hx
  have hw : w.toNumber = .ok .nan := rfl
  have hundefined : ∀ x, undefined.toNumber ≠ .ok x := by
    intro x hx
    have herror : undefined.toNumber = .error (undefined.conversionFault .number) := rfl
    rw [herror] at hx
    cases hx
  have hliteral : ∀ u : Value,
      (Expr.literal u .unknown).evaluate .unlimited .empty = .ok (u.withPosition .unknown) := by
    intro u
    rw [Expr.evaluate]
    rfl
  obtain ⟨-, -, hrange⟩ := rangeTo_isRun_and_length
  obtain ⟨hok, -, hevaluate⟩ := hrange v w
  obtain ⟨-, herror, hevaluate'⟩ := hrange undefined w
  obtain ⟨first, last, hfirst, hlast, hrun⟩ := hok x .nan hv hw
  rw [Number.isBound_iff] at hfirst hlast
  rw [hbound] at hfirst
  subst hfirst hlast
  refine ⟨⟨x, .nan, hv, hw⟩, ?_, hundefined, ?_⟩
  · rw [hevaluate _ _ _ _ (hliteral v) (hliteral w), hrun]
    rfl
  · rw [hevaluate' _ _ _ _ (hliteral undefined) (hliteral w), herror (.inl hundefined)]
    rfl

end ExprLang
