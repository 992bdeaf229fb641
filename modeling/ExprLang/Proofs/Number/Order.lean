import ExprLang.Number.Basic
import Mathlib.Algebra.Order.Field.Basic
import Mathlib.Algebra.Order.Field.Rat
import Mathlib.Algebra.Order.Ring.Cast

/-!
# The order of numbers

Numbers are ordered by their levels, which are integers, so the order is total.  What has to be seen
is which numbers have one level.  The level of a finite number is its count of units with its sign,
those of the infinities and of NaN lie beyond all counts, and so a level tells the number
(`order_eq_eq_iff`), but for one thing: zero has the same level with either sign.

Which of two numbers comes first is said without levels by `Below`: finite numbers stand by their values,
between the two infinities, and NaN stands above everything (`order_eq_lt_iff`).
-/

namespace ExprLang
namespace Number

instance : Std.TransCmp order := inferInstanceAs (Std.TransCmp (compareOn level))

/-- The number, with the sign of zero dropped. -/
def unsignedZero (x : Number) : Number := if x.isZero then zero else x

theorem natAbs_signed (s : Bool) (n : Nat) : (signed s n).natAbs = n := by
  cases s <;> simp

theorem signed_inj {s t : Bool} {n : Nat} (hn : n ≠ 0) (h : signed s n = signed t n) : s = t := by
  cases s <;> cases t <;> simp at h ⊢ <;> omega

theorem isZero_finite_iff {s : Bool} {m : Magnitude} : (finite s m).isZero = true ↔ m = .zero := by
  rw [isZero, beq_iff_eq]
  exact ⟨fun h => Magnitude.ext h, fun h => by rw [h, Magnitude.zero_units]⟩

/-- The level tells a number from every other, except that zero has two signs. -/
theorem eq_of_level_eq {x y : Number} (h : x.level = y.level) :
    x = y ∨ x.isZero = true ∧ y.isZero = true := by
  have habs : x.level.natAbs = y.level.natAbs := by rw [h]
  cases x with
  | nan =>
    cases y with
    | nan => exact .inl rfl
    | infinite t =>
      rw [level_nan, level_infinite, natAbs_signed] at habs
      omega
    | finite t b =>
      have hb := b.bounded
      rw [level_nan, level_finite, natAbs_signed] at habs
      omega
  | infinite s =>
    cases y with
    | nan =>
      rw [level_nan, level_infinite, natAbs_signed] at habs
      omega
    | infinite t => rw [signed_inj (Nat.ne_of_gt Magnitude.bound_pos) h]; exact .inl rfl
    | finite t b =>
      have hb := b.bounded
      rw [level_infinite, level_finite, natAbs_signed, natAbs_signed] at habs
      omega
  | finite s a =>
    have ha := a.bounded
    cases y with
    | nan =>
      rw [level_nan, level_finite, natAbs_signed] at habs
      omega
    | infinite t =>
      rw [level_infinite, level_finite, natAbs_signed, natAbs_signed] at habs
      omega
    | finite t b =>
      rw [level_finite, level_finite, natAbs_signed, natAbs_signed] at habs
      obtain rfl : a = b := Magnitude.ext habs
      by_cases hzero : a = .zero
      · exact .inr ⟨isZero_finite_iff.2 hzero, isZero_finite_iff.2 hzero⟩
      · have hunits : a.units ≠ 0 := fun hunits => hzero (Magnitude.ext hunits)
        rw [signed_inj hunits h]
        exact .inl rfl

theorem level_unsignedZero (x : Number) : x.unsignedZero.level = x.level := by
  rw [unsignedZero]
  split
  · rename_i h
    cases x with
    | finite s m =>
      rw [isZero_finite_iff.1 h]
      simp [zero, signedZero]
    | _ => cases h
  · rfl

/-- **Numbers are equal in order just if they are the same**, up to the sign of zero. -/
theorem order_eq_eq_iff (x y : Number) :
    x.order y = .eq ↔ x.unsignedZero = y.unsignedZero := by
  rw [order, Std.LawfulEqOrd.compare_eq_iff_eq]
  constructor
  · intro h
    rcases eq_of_level_eq h with rfl | ⟨hx, hy⟩
    · rfl
    · rw [unsignedZero, unsignedZero, if_pos hx, if_pos hy]
  · intro h
    rw [← level_unsignedZero x, h, level_unsignedZero]

/-! ## Below -/

/-- The rational number that a finite number is. -/
def value? : Number → Option ℚ
  | .finite negative m => some ((signed negative m.units : ℚ) / Magnitude.one)
  | _ => none

/-- One number comes before another. -/
inductive Below : Number → Number → Prop where
  | values {x y : Number} {q r : ℚ} (hx : x.value? = some q) (hy : y.value? = some r) (h : q < r) :
      Below x y
  | negativeInfinity {y : Number} (h : y.isFinite = true) : Below (.infinite true) y
  | infinities : Below (.infinite true) (.infinite false)
  | positiveInfinity {x : Number} (h : x.isFinite = true) : Below x (.infinite false)
  | nan {x : Number} (h : x ≠ .nan) : Below x .nan

variable {x y : Number}

/-- Finite numbers have levels within the bound, which is the level of an infinity. -/
theorem natAbs_level_lt (h : x.isFinite = true) : x.level.natAbs < Magnitude.bound := by
  cases x with
  | finite s m =>
    rw [level_finite, natAbs_signed]
    exact m.bounded
  | _ => cases h

theorem natAbs_level_le (h : x ≠ .nan) : x.level.natAbs ≤ Magnitude.bound := by
  cases x with
  | nan => exact absurd rfl h
  | infinite s => exact Nat.le_of_eq (natAbs_signed s Magnitude.bound)
  | finite s m => exact Nat.le_of_lt (natAbs_level_lt rfl)

/-- Values stand as the counts of units do. -/
theorem value_lt_iff {s t : Bool} {a b : Magnitude} :
    (signed s a.units : ℚ) / Magnitude.one < signed t b.units / Magnitude.one ↔
      (finite s a).level < (finite t b).level := by
  have hone : (0 : ℚ) < Magnitude.one := Nat.cast_pos.2 Magnitude.one_pos
  rw [div_lt_div_iff_of_pos_right hone, Int.cast_lt]
  rfl

theorem level_lt_of_below (h : x.Below y) : x.level < y.level := by
  cases h with
  | @values _ _ q r hx hy h =>
    cases x with
    | finite s a =>
      cases y with
      | finite t b =>
        obtain rfl := Option.some.inj hx
        obtain rfl := Option.some.inj hy
        exact value_lt_iff.1 h
      | _ => cases hy
    | _ => cases hx
  | negativeInfinity h =>
    have hlt := natAbs_level_lt h
    rw [level_infinite, signed_true]
    omega
  | infinities =>
    have hpos := Magnitude.bound_pos
    rw [level_infinite, level_infinite, signed_true, signed_false]
    omega
  | positiveInfinity h =>
    have hlt := natAbs_level_lt h
    rw [level_infinite, signed_false]
    omega
  | nan h =>
    have hle := natAbs_level_le h
    rw [level_nan]
    omega

/-- Nothing is below the negative infinity. -/
theorem neg_bound_le_level (x : Number) : -(Magnitude.bound : Int) ≤ x.level := by
  by_cases h : x = .nan
  · rw [h, level_nan]
    omega
  · have hle := natAbs_level_le h
    omega

theorem below_of_level_lt (h : x.level < y.level) : x.Below y := by
  cases y with
  | nan =>
    refine .nan ?_
    rintro rfl
    exact absurd h (Int.lt_irrefl _)
  | infinite negative =>
    cases negative with
    | true => exact absurd h (Int.not_lt.2 (neg_bound_le_level x))
    | false =>
      cases x with
      | nan =>
        rw [level_nan, level_infinite, signed_false] at h
        omega
      | infinite negative =>
        cases negative with
        | true => exact .infinities
        | false => exact absurd h (Int.lt_irrefl _)
      | finite s a => exact .positiveInfinity rfl
  | finite t b =>
    have hlt := natAbs_level_lt (x := .finite t b) rfl
    cases x with
    | nan =>
      rw [level_nan] at h
      omega
    | infinite negative =>
      cases negative with
      | true => exact .negativeInfinity rfl
      | false =>
        rw [level_infinite, signed_false] at h
        omega
    | finite s a => exact .values rfl rfl (value_lt_iff.2 h)

/-- **Finite numbers stand by their values between the infinities, and NaN above everything.** -/
theorem order_eq_lt_iff : x.order y = .lt ↔ x.Below y := by
  rw [order, Std.compare_eq_lt]
  exact ⟨below_of_level_lt, level_lt_of_below⟩

end Number
end ExprLang
