import ExprLang.Proofs.Number.Nearest
import Mathlib.Algebra.Order.Field.Rat
import Mathlib.Algebra.Order.Ring.Abs
import Mathlib.Tactic.FieldSimp
import Mathlib.Tactic.Linarith
import Mathlib.Tactic.Ring

/-!
# Correct rounding

What it means for a count of units to be the rounding of a rational number: it lies on the grid, no
count on the grid is closer, and where another one is as close, its own multiplier is even
(`Magnitude.IsRounding`).  `Magnitude.nearest` rounds correctly (`isRounding_nearest`).

## What follows from the definition alone

Nothing below unfolds `nearest` again.  A rational number has one rounding (`IsRounding.unique`), since
of two neighbours on the grid one has an odd multiplier.  So quotients with one value are rounded to one
count, whatever their terms are.  Rounding is monotone (`IsRounding.mono`), hence whatever lies between
two numbers that round to a count rounds to it as well.

## How close is close enough

Two counts on the grid differ by at least the `2⁵³`rd part of the greater one
(`le_two_pow_mul_sub`).  Hence a number that is closer to a count than half of that rounds to it
(`IsRounding.eq_of_close`).
-/

namespace ExprLang

/-- Only a quotient halfway between two integers is not decided by distance, and then parity decides. -/
theorem roundQuotient_cases_of_odd {num den : Nat} (h : ¬ 2 ∣ roundQuotient num den) :
    (roundQuotient num den = num / den ∧ 2 * (num % den) < den) ∨
      (roundQuotient num den = num / den + 1 ∧ den < 2 * (num % den)) := by
  unfold roundQuotient at h ⊢
  simp only at h ⊢
  by_cases hbelow : 2 * (num % den) < den
  · exact .inl ⟨if_pos hbelow, hbelow⟩
  · rw [if_neg hbelow] at h ⊢
    by_cases habove : den < 2 * (num % den)
    · exact .inr ⟨if_pos habove, habove⟩
    · rw [if_neg habove] at h
      omega

/-- If another multiple is as close as that of the rounded quotient, the latter is even. -/
theorem two_dvd_roundQuotient {num den k : Nat} (hden : 0 < den) (hk : k ≠ roundQuotient num den)
    (htie : (↑(k * den) - (num : Int)).natAbs = (↑(roundQuotient num den * den) - (num : Int)).natAbs) :
    2 ∣ roundQuotient num den := by
  by_contra hodd
  have hsplit : num / den * den + num % den = num := Nat.div_add_mod' num den
  have hrest : num % den < den := Nat.mod_lt num hden
  have hnext : (num / den + 1) * den = num / den * den + den := Nat.succ_mul _ _
  have hless : k < num / den → (k + 1) * den ≤ num / den * den := Nat.mul_le_mul_right den
  have hmore : num / den + 1 < k → (num / den + 1 + 1) * den ≤ k * den := Nat.mul_le_mul_right den
  rw [Nat.succ_mul] at hless hmore
  obtain ⟨h, hhalf⟩ | ⟨h, hhalf⟩ := roundQuotient_cases_of_odd hodd <;> rw [h] at hk htie <;>
    obtain hk' | rfl | rfl | hk' :
      k < num / den ∨ k = num / den ∨ k = num / den + 1 ∨ num / den + 1 < k := by omega
  all_goals omega

namespace Magnitude

/-! ## The rounding of a rational number -/

/-- Correct rounding of a number of units: to the closest count on the grid, and of two equally close
ones to the one with an even multiplier of its spacing. -/
structure IsRounding (q : ℚ) (n : ℕ) : Prop where
  aligned : spacing n ∣ n
  closest : ∀ k, spacing k ∣ k → |(n : ℚ) - q| ≤ |(k : ℚ) - q|
  even : ∀ k, spacing k ∣ k → k ≠ n → |(k : ℚ) - q| = |(n : ℚ) - q| → 2 * spacing n ∣ n

/-- The distance of a count to a quotient, as that of two integers. -/
theorem abs_sub_div (k num : ℕ) {den : ℕ} (hden : 0 < den) :
    |(k : ℚ) - num / den| = ((↑(k * den) - (num : Int)).natAbs : ℚ) / den := by
  have hden' : (0 : ℚ) < den := Nat.cast_pos.2 hden
  rw [eq_div_iff hden'.ne', ← abs_of_pos hden', ← abs_mul, Nat.cast_natAbs, Int.cast_abs, abs_of_pos hden']
  congr 1
  field_simp
  push_cast
  rfl

/-- Rounding goes up to the next power of two at most. -/
theorem nearest_le_two_pow (num den : ℕ) : nearest num den ≤ 2 ^ ((num / den).log2 + 1) := by
  have hgap : spacing (num / den) ∣ 2 ^ ((num / den).log2 + 1) := by
    rw [spacing, Nat.pow_eq]
    exact Nat.pow_dvd_pow 2 (by omega)
  obtain ⟨c, hc⟩ := hgap
  have hquotient : num / (den * spacing (num / den)) < c := by
    rw [← Nat.div_div_eq_div_mul, Nat.div_lt_iff_lt_mul (spacing_pos _), Nat.mul_comm, ← hc]
    exact Nat.lt_log2_self
  rw [hc, nearest, Nat.mul_comm]
  exact Nat.mul_le_mul_left _ (Nat.le_trans (roundQuotient_le ..) hquotient)

/-- An even rounded quotient is an even multiplier of the spacing, also when rounding lengthens the
count. -/
theorem two_mul_spacing_dvd_nearest {num den : ℕ}
    (h : 2 ∣ roundQuotient num (den * spacing (num / den))) :
    2 * spacing (nearest num den) ∣ nearest num den := by
  rcases Nat.lt_or_eq_of_le (nearest_le_two_pow num den) with hlt | heq
  · have hlog : (nearest num den).log2 ≤ (num / den).log2 := by
      rcases Nat.eq_zero_or_pos (nearest num den) with hzero | hpos
      · rw [hzero]
        exact Nat.zero_le _
      · exact Nat.le_of_lt_succ ((Nat.log2_lt hpos.ne').2 hlt)
    exact Nat.dvd_trans (Nat.mul_dvd_mul_left 2 (spacing_dvd_spacing hlog)) (Nat.mul_dvd_mul_right h _)
  · rw [heq, spacing, Nat.log2_two_pow, Nat.pow_eq, ← Nat.pow_succ']
    exact Nat.pow_dvd_pow 2 (by omega)

/-- **The nearest count is the correct rounding.** -/
theorem isRounding_nearest (num : ℕ) {den : ℕ} (hden : 0 < den) :
    IsRounding (num / den) (nearest num den) := by
  have hden' : (0 : ℚ) < den := Nat.cast_pos.2 hden
  refine ⟨spacing_dvd_nearest num den, fun k hk => ?_, fun k hk hne htie => ?_⟩
  · rw [abs_sub_div _ _ hden, abs_sub_div _ _ hden, div_le_div_iff_of_pos_right hden', Nat.cast_le]
    exact natAbs_nearest_mul_sub_le num hden hk
  · rw [abs_sub_div _ _ hden, abs_sub_div _ _ hden, div_left_inj' hden'.ne', Nat.cast_inj] at htie
    obtain ⟨j, rfl⟩ := spacing_dvd_of_natAbs_le hden hk htie.le
    have hgap : 0 < den * spacing (num / den) := Nat.mul_pos hden (spacing_pos _)
    have hleft : spacing (num / den) * j * den = j * (den * spacing (num / den)) := by ring
    have hright : nearest num den * den =
        roundQuotient num (den * spacing (num / den)) * (den * spacing (num / den)) := by
      rw [nearest]
      ring
    rw [hleft, hright] at htie
    refine two_mul_spacing_dvd_nearest (two_dvd_roundQuotient hgap (fun h => hne ?_) htie)
    rw [h, nearest, Nat.mul_comm]

/-! ## Neighbours on the grid -/

/-- The next count on the grid. -/
theorem spacing_dvd_add_spacing {n : ℕ} (h : spacing n ∣ n) :
    spacing (n + spacing n) ∣ n + spacing n := by
  have hmul : (n / spacing n + 1) * Nat.pow 2 (n.log2 - 52) = n + spacing n := by
    show (n / spacing n + 1) * spacing n = _
    rw [Nat.succ_mul, Nat.div_mul_cancel h]
  have hdvd := spacing_dvd_mul (k := n.log2 - 52) (Nat.succ_le_of_lt (div_spacing_lt n))
  rwa [Nat.succ_eq_add_one, hmul] at hdvd

theorem spacing_dvd_spacing_of_le {m n : ℕ} (h : m ≤ n) : spacing m ∣ spacing n := by
  rcases Nat.eq_zero_or_pos m with rfl | hpos
  · exact spacing_dvd_spacing (Nat.zero_le _)
  · have hn : n ≠ 0 := (Nat.lt_of_lt_of_le hpos h).ne'
    exact spacing_dvd_spacing ((Nat.le_log2 hn).2 (Nat.le_trans (Nat.log2_self_le hpos.ne') h))

/-- A greater count on the grid is greater by the spacing at least. -/
theorem add_spacing_le {m n : ℕ} (hm : spacing m ∣ m) (hn : spacing n ∣ n) (h : m < n) :
    m + spacing m ≤ n := by
  have hdvd : spacing m ∣ n - m :=
    Nat.dvd_sub (Nat.dvd_trans (spacing_dvd_spacing_of_le h.le) hn) hm
  have hle := Nat.le_of_dvd (Nat.sub_pos_of_lt h) hdvd
  omega

/-- **Counts on the grid are far apart**, compared with the greater of them. -/
theorem le_two_pow_mul_sub {m n : ℕ} (hm : spacing m ∣ m) (hn : spacing n ∣ n) (h : m < n) :
    n ≤ 2 ^ 53 * (n - m) := by
  have hnext := add_spacing_le hm hn h
  have hcount : m / spacing m * spacing m = m := Nat.div_mul_cancel hm
  have hmultiplier : m / spacing m * spacing m ≤ (2 ^ 53 - 1) * spacing m :=
    Nat.mul_le_mul_right _ (Nat.le_sub_one_of_lt (div_spacing_lt m))
  have hgap : (2 ^ 53 - 1) * spacing m ≤ (2 ^ 53 - 1) * (n - m) :=
    Nat.mul_le_mul_left _ (Nat.le_sub_of_add_le' hnext)
  omega

theorem cast_le_two_pow_mul_abs_sub {m n : ℕ} (hm : spacing m ∣ m) (hn : spacing n ∣ n) (h : m ≠ n) :
    (n : ℚ) ≤ 2 ^ 53 * |(m : ℚ) - n| := by
  rcases Nat.lt_or_gt_of_ne h with hlt | hgt
  · have hle := Nat.cast_le (α := ℚ).2 (le_two_pow_mul_sub hm hn hlt)
    rw [abs_sub_comm, abs_of_pos (sub_pos.2 (Nat.cast_lt.2 hlt)), ← Nat.cast_sub hlt.le]
    exact_mod_cast hle
  · have hle := Nat.cast_le (α := ℚ).2 (Nat.le_trans hgt.le (le_two_pow_mul_sub hn hm hgt))
    rw [abs_of_pos (sub_pos.2 (Nat.cast_lt.2 hgt)), ← Nat.cast_sub hgt.le]
    exact_mod_cast hle

/-! ## Laws of rounding -/

/-- Where the greater of two points is at least as close, the number is not below their middle. -/
theorem add_le_two_mul_of_abs_sub_le {a b q : ℚ} (h : a < b) (hle : |b - q| ≤ |a - q|) :
    a + b ≤ 2 * q := by
  by_contra hq
  rw [not_le] at hq
  have hb : b - q ≤ |b - q| := le_abs_self _
  have ha : |a - q| < b - q := abs_lt.2 ⟨by linarith, by linarith⟩
  linarith

namespace IsRounding
variable {q r : ℚ} {m n : ℕ}

/-- Two roundings of one number are equally close to it. -/
theorem abs_sub_eq (hm : IsRounding q m) (hn : IsRounding q n) :
    |(m : ℚ) - q| = |(n : ℚ) - q| :=
  le_antisymm (hm.closest n hn.aligned) (hn.closest m hm.aligned)

/-- **A number has one rounding.** -/
theorem unique (hm : IsRounding q m) (hn : IsRounding q n) : m = n := by
  by_contra hne
  wlog hlt : m < n generalizing m n
  · exact this hn hm (Ne.symm hne) (Nat.lt_of_le_of_ne (Nat.le_of_not_lt hlt) (Ne.symm hne))
  have htie := hm.abs_sub_eq hn
  have hlt' : (m : ℚ) < n := Nat.cast_lt.2 hlt
  -- the number lies halfway, so no count lies in between
  have hhalf : (n : ℚ) - q = q - m := by
    rcases abs_eq_abs.1 htie with h | h <;> linarith
  have hnext : n = m + spacing m := by
    refine (Nat.lt_or_eq_of_le (add_spacing_le hm.aligned hn.aligned hlt)).elim (fun hlt'' => ?_) Eq.symm
    have hcloser := hm.closest _ (spacing_dvd_add_spacing hm.aligned)
    have hpos : (0 : ℚ) < spacing m := Nat.cast_pos.2 (spacing_pos m)
    have hbelow : ((m + spacing m : ℕ) : ℚ) < n := Nat.cast_lt.2 hlt''
    rw [Nat.cast_add] at hbelow hcloser
    rw [abs_of_nonpos (by linarith : (m : ℚ) - q ≤ 0), le_abs] at hcloser
    rcases hcloser with h | h <;> linarith
  -- of two neighbours only one has an even multiplier
  have hevenm := hm.even n hn.aligned (Ne.symm hne) htie.symm
  have hevenn : 2 * spacing m ∣ n :=
    Nat.dvd_trans (Nat.mul_dvd_mul_left 2 (spacing_dvd_spacing_of_le hlt.le))
      (hn.even m hm.aligned hne htie)
  rw [hnext] at hevenn
  have hle := Nat.le_of_dvd (spacing_pos m) ((Nat.dvd_add_right hevenm).1 hevenn)
  have hpos := spacing_pos m
  omega

/-- **Rounding is monotone.** -/
theorem mono (hm : IsRounding q m) (hn : IsRounding r n) (h : q ≤ r) : m ≤ n := by
  by_contra hlt
  rw [Nat.not_le] at hlt
  have hlt' : (n : ℚ) < m := Nat.cast_lt.2 hlt
  have hm' := hm.closest n hn.aligned
  have hn' := hn.closest m hm.aligned
  -- the middle of the two is neither above the first number nor below the second
  have hq : (n : ℚ) + m ≤ 2 * q := add_le_two_mul_of_abs_sub_le hlt' hm'
  have hr : (-m : ℚ) + -n ≤ 2 * -r := by
    refine add_le_two_mul_of_abs_sub_le (neg_lt_neg hlt') ?_
    rwa [← neg_sub', ← neg_sub', abs_neg, abs_neg]
  have hqr : q = r := by linarith
  exact hlt.ne' (hm.unique (hqr ▸ hn))

/-- **What is close enough to a count on the grid rounds to it.** -/
theorem eq_of_close (hm : IsRounding q m) (hn : spacing n ∣ n) (h : 2 ^ 54 * |(n : ℚ) - q| < n) :
    m = n := by
  by_contra hne
  have hclosest := hm.closest n hn
  have htriangle : |(m : ℚ) - n| ≤ |(m : ℚ) - q| + |(n : ℚ) - q| := by
    rw [abs_sub_comm (n : ℚ) q]
    exact abs_sub_le _ _ _
  have hapart := cast_le_two_pow_mul_abs_sub hm.aligned hn hne
  linarith

end IsRounding

end Magnitude
end ExprLang
