import ExprLang.Number.Integer
import ExprLang.Proofs.Number.Order

/-!
# Rounding goes to the nearest number

`Magnitude.nearest` looks for the closest point on one grid only, that of the spacing at the quotient that
is rounded.  Yet no number at all is closer (`natAbs_nearest_mul_sub_le`).  Numbers as long as the quotient
or longer lie on that grid.  The shorter ones need not, as they stand closer together, but they are all
below the power of two at which the quotient's length begins; this power lies on the grid, and it is closer
than all of them since the quotient is not below it.

Distances are compared as multiples of the divisor, so that they are differences of integers.

With a sign on both sides this says that an integer becomes a number that is nearest to it among all finite
numbers, if it becomes a finite one (`isNearest_ofInt`), and every 64-bit integer does
(`isFinite_ofInt`).
-/

namespace ExprLang

/-- Rounding a quotient drops at most half of the divisor, or adds at most that. -/
theorem roundQuotient_cases (num den : Nat) :
    (roundQuotient num den = num / den ∧ 2 * (num % den) ≤ den) ∨
      (roundQuotient num den = num / den + 1 ∧ den ≤ 2 * (num % den)) := by
  unfold roundQuotient
  simp only
  split
  · omega
  · split <;> omega

/-- No multiple of the divisor is closer than that of the rounded quotient. -/
theorem natAbs_roundQuotient_mul_sub_le (num : Nat) {den : Nat} (hden : 0 < den) (k : Nat) :
    (↑(roundQuotient num den * den) - (num : Int)).natAbs ≤ (↑(k * den) - (num : Int)).natAbs := by
  have hsplit : num / den * den + num % den = num := Nat.div_add_mod' num den
  have hrest : num % den < den := Nat.mod_lt num hden
  have hnext : (num / den + 1) * den = num / den * den + den := Nat.succ_mul _ _
  rcases Nat.lt_or_ge (num / den) k with hk | hk
  · have habove : (num / den + 1) * den ≤ k * den := Nat.mul_le_mul_right den hk
    obtain ⟨h, hhalf⟩ | ⟨h, hhalf⟩ := roundQuotient_cases num den <;> rw [h] <;> omega
  · have hbelow : k * den ≤ num / den * den := Nat.mul_le_mul_right den hk
    obtain ⟨h, hhalf⟩ | ⟨h, hhalf⟩ := roundQuotient_cases num den <;> rw [h] <;> omega

namespace Magnitude

/-- The grid at a longer count is a part of the grid at a shorter one. -/
theorem spacing_dvd_spacing {a b : Nat} (h : a.log2 ≤ b.log2) : spacing a ∣ spacing b := by
  rw [spacing, spacing, Nat.pow_eq, Nat.pow_eq]
  exact Nat.pow_dvd_pow 2 (by omega)

/-- No point on the grid that is rounded to is closer to the quotient. -/
theorem natAbs_nearest_mul_sub_le_of_dvd (num : Nat) {den : Nat} (hden : 0 < den) {m : Nat}
    (hm : spacing (num / den) ∣ m) :
    (↑(nearest num den * den) - (num : Int)).natAbs ≤ (↑(m * den) - (num : Int)).natAbs := by
  obtain ⟨k, rfl⟩ := hm
  have hgap : 0 < den * spacing (num / den) := Nat.mul_pos hden (spacing_pos _)
  have hclosest := natAbs_roundQuotient_mul_sub_le num hgap k
  have hleft : nearest num den * den =
      roundQuotient num (den * spacing (num / den)) * (den * spacing (num / den)) := by
    rw [nearest, Nat.mul_assoc, Nat.mul_comm den]
  have hright : spacing (num / den) * k * den = k * (den * spacing (num / den)) := by
    rw [Nat.mul_comm _ k, Nat.mul_assoc, Nat.mul_comm den]
  rwa [hleft, hright]

/-- The power of two where the length of a count begins lies on its grid. -/
theorem spacing_dvd_two_pow_log2 (count : Nat) : spacing count ∣ Nat.pow 2 count.log2 := by
  rw [spacing, Nat.pow_eq, Nat.pow_eq]
  exact Nat.pow_dvd_pow 2 (by omega)

/-- Between a shorter count and a quotient stands the power of two where the length of the quotient
begins. -/
theorem mul_lt_two_pow_log2_mul {num den m : Nat} (hden : 0 < den) (h : m.log2 < (num / den).log2) :
    m * den < Nat.pow 2 (num / den).log2 * den ∧ Nat.pow 2 (num / den).log2 * den ≤ num := by
  have hne : num / den ≠ 0 := by
    intro hzero
    rw [hzero] at h
    exact absurd h (Nat.not_lt_zero _)
  have hbelow : m < Nat.pow 2 (num / den).log2 :=
    Nat.lt_of_lt_of_le Nat.lt_log2_self (Nat.pow_le_pow_right (by decide) h)
  exact ⟨Nat.mul_lt_mul_of_pos_right hbelow hden,
    Nat.le_trans (Nat.mul_le_mul_right den (Nat.log2_self_le hne)) (Nat.div_mul_le_self num den)⟩

/-- **No point on any grid is closer to the quotient.** -/
theorem natAbs_nearest_mul_sub_le (num : Nat) {den : Nat} (hden : 0 < den) {m : Nat}
    (hm : spacing m ∣ m) :
    (↑(nearest num den * den) - (num : Int)).natAbs ≤ (↑(m * den) - (num : Int)).natAbs := by
  rcases Nat.lt_or_ge m.log2 (num / den).log2 with hlt | hge
  · obtain ⟨hbelow, hle⟩ := mul_lt_two_pow_log2_mul hden hlt
    have hpower := natAbs_nearest_mul_sub_le_of_dvd num hden (spacing_dvd_two_pow_log2 (num / den))
    omega
  · exact natAbs_nearest_mul_sub_le_of_dvd num hden (Nat.dvd_trans (spacing_dvd_spacing hge) hm)

/-- What is as close to the quotient as its rounding lies on the grid that is rounded to. -/
theorem spacing_dvd_of_natAbs_le {num den m : Nat} (hden : 0 < den) (hm : spacing m ∣ m)
    (h : (↑(m * den) - (num : Int)).natAbs ≤ (↑(nearest num den * den) - (num : Int)).natAbs) :
    spacing (num / den) ∣ m := by
  rcases Nat.lt_or_ge m.log2 (num / den).log2 with hlt | hge
  · obtain ⟨hbelow, hle⟩ := mul_lt_two_pow_log2_mul hden hlt
    have hpower := natAbs_nearest_mul_sub_le_of_dvd num hden (spacing_dvd_two_pow_log2 (num / den))
    omega
  · exact Nat.dvd_trans (spacing_dvd_spacing hge) hm

/-- Rounding at most doubles, as zero is a number. -/
theorem nearest_one_le (num : Nat) : nearest num 1 ≤ 2 * num := by
  have hzero := natAbs_nearest_mul_sub_le num (by decide : 0 < 1) (Nat.dvd_zero (spacing 0))
  omega

/-- There is room for every integer of 64 bits, and for much more. -/
theorem two_mul_mul_one_lt_bound {k : Nat} (h : k ≤ 0x8000000000000000) : 2 * (k * one) < bound := by
  have hdigits : 64 + fractionDigits < maximalDigits := by decide
  have hword : 2 * 0x8000000000000000 = Nat.pow 2 64 := rfl
  unfold one bound
  -- else the powers are computed
  generalize fractionDigits = a, maximalDigits = b at hdigits ⊢
  calc 2 * (k * Nat.pow 2 a) ≤ 2 * (0x8000000000000000 * Nat.pow 2 a) :=
        Nat.mul_le_mul_left 2 (Nat.mul_le_mul_right _ h)
    _ = Nat.pow 2 64 * Nat.pow 2 a := by rw [← Nat.mul_assoc, hword]
    _ = Nat.pow 2 (64 + a) := (Nat.pow_add 2 64 a).symm
    _ < Nat.pow 2 b := Nat.pow_lt_pow_right (by decide) hdigits

end Magnitude

namespace Number
open Magnitude (one)

/-- A finite number, such that no finite number is closer to the integer. -/
def IsNearest (x : Number) (n : Int) : Prop :=
  x.isFinite = true ∧
    ∀ y : Number, y.isFinite = true → (x.level - n * one).natAbs ≤ (y.level - n * one).natAbs

/-- No signs bring two counts closer. -/
theorem natAbs_sub_le_natAbs_signed_sub (s t : Bool) (a b : Nat) :
    ((a : Int) - b).natAbs ≤ (signed t a - signed s b).natAbs := by
  cases s <;> cases t <;> simp only [signed_true, signed_false] <;> omega

/-- With one sign, two counts are as far apart as without. -/
theorem natAbs_signed_sub_signed (s : Bool) (a b : Nat) :
    (signed s a - signed s b).natAbs = ((a : Int) - b).natAbs := by
  cases s with
  | false => rw [signed_false, signed_false]
  | true =>
    rw [signed_true, signed_true]
    omega

theorem signed_natAbs_mul (n : Int) (k : Nat) : signed (n < 0) (n.natAbs * k) = n * k := by
  by_cases hn : n < 0
  · have habs : (n.natAbs : Int) = -n := by omega
    rw [decide_eq_true hn, signed_true, Int.natCast_mul, habs, Int.neg_mul, Int.neg_neg]
  · have habs : (n.natAbs : Int) = n := by omega
    rw [decide_eq_false hn, signed_false, Int.natCast_mul, habs]

/-- With a sign, a rounded count is at least as close as any finite number is. -/
theorem natAbs_level_ofRatio_sub_le {s : Bool} {num : Nat} (h : (ofRatio s num 1).isFinite = true)
    {y : Number} (hy : y.isFinite = true) :
    ((ofRatio s num 1).level - signed s num).natAbs ≤ (y.level - signed s num).natAbs := by
  unfold ofRatio at h ⊢
  cases hround : Magnitude.ofRatio? num 1 with
  | none =>
    rw [hround] at h
    cases h
  | some a =>
    cases y with
    | nan => cases hy
    | infinite t => cases hy
    | finite t m =>
      have hclosest := Magnitude.natAbs_nearest_mul_sub_le num (by decide : 0 < 1) m.aligned
      rw [Nat.mul_one, Nat.mul_one, Magnitude.ofRatio?_eq_some_iff.1 hround] at hclosest
      show (signed s a.units - signed s num).natAbs ≤ (signed t m.units - signed s num).natAbs
      rw [natAbs_signed_sub_signed]
      exact Nat.le_trans hclosest (natAbs_sub_le_natAbs_signed_sub s t m.units num)

/-- **An integer that becomes a finite number becomes one nearest to it.** -/
theorem isNearest_ofInt {n : Int} (h : (ofInt n).isFinite = true) : (ofInt n).IsNearest n := by
  refine ⟨h, fun y hy => ?_⟩
  rw [← signed_natAbs_mul n one]
  exact natAbs_level_ofRatio_sub_le h hy

theorem isFinite_ofRatio (s : Bool) {num : Nat} (h : 2 * num < Magnitude.bound) :
    (ofRatio s num 1).isFinite = true := by
  have hbound : Magnitude.nearest num 1 < Magnitude.bound :=
    Nat.lt_of_le_of_lt (Magnitude.nearest_one_le num) h
  unfold ofRatio Magnitude.ofRatio?
  rw [dif_pos hbound]
  rfl

/-- **Every 64-bit integer becomes a finite number.** -/
theorem isFinite_ofInt {n : Int} (h : leastWord ≤ n) (h' : n ≤ greatestWord) :
    (ofInt n).isFinite = true := by
  have habs : n.natAbs ≤ 0x8000000000000000 := by
    unfold leastWord at h
    unfold greatestWord at h'
    omega
  exact isFinite_ofRatio _ (Magnitude.two_mul_mul_one_lt_bound habs)

end Number
end ExprLang
