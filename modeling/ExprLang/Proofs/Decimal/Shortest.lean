import ExprLang.Decimal.Shortest
import ExprLang.Proofs.Decimal.Digits
import Mathlib.Data.Nat.Cast.Order.Field

/-!
# The shortest decimal is shortest

`Magnitude.shortest` reads back (`readsBack_shortest`), and no decimal with fewer digits does
(`length_digitsOf_shortest_le`).

## Two neighbours are enough

The search looks at the two neighbours of the magnitude on each grid and at no other decimals.  A
decimal with `n` digits need not even lie on the grid that is searched for `n`, since it may have its
first digit elsewhere.  But it never lies strictly between the two neighbours
(`value_le_floorOn_or_nextOn_le`): if its first digit stands where that of the magnitude does, it lies on
the grid, and else a power of ten separates it from the magnitude, and this power lies on the grid.  So
one of the neighbours is between the decimal and the magnitude, and rounding is monotone.

## Seventeen digits are enough

On the grid of seventeen digits the points are less than the `10¹⁶`th part of the magnitude apart, so one
of the neighbours is closer than half of that.  As `2⁵³ < 10¹⁶`, this is close enough to read back.
-/

namespace ExprLang
namespace Magnitude

/-! ## Values -/

/-- The rational number that a magnitude is. -/
def value (m : Magnitude) : ℚ := m.units / one

theorem one_cast_pos : (0 : ℚ) < one := Nat.cast_pos.2 one_pos

theorem value_mul_one (m : Magnitude) : m.value * one = m.units :=
  div_mul_cancel₀ _ one_cast_pos.ne'

/-- A count on the grid is its own rounding. -/
theorem isRounding_self {n : ℕ} (h : spacing n ∣ n) : IsRounding n n := by
  refine ⟨h, fun k _ => ?_, fun k _ hne htie => ?_⟩
  · rw [sub_self, abs_zero]
    exact abs_nonneg _
  · rw [sub_self, abs_zero, abs_eq_zero, sub_eq_zero, Nat.cast_inj] at htie
    exact absurd htie hne

theorem readsBack_iff {m : Magnitude} {d : Decimal} :
    m.readsBack d = true ↔ IsRounding (d.value * one) m.units := by
  rw [readsBack, beq_iff_eq]
  exact ⟨fun h => h ▸ d.isRounding_nearestUnits, fun h => d.isRounding_nearestUnits.unique h⟩

/-- **What lies between a decimal that reads back and the magnitude** reads back as well. -/
theorem readsBack_of_between {m : Magnitude} {d e : Decimal} (hd : m.readsBack d = true)
    (h : d.value ≤ e.value ∧ e.value ≤ m.value ∨ m.value ≤ e.value ∧ e.value ≤ d.value) :
    m.readsBack e = true := by
  have hself := isRounding_self m.aligned
  have hround := e.isRounding_nearestUnits
  rw [readsBack_iff] at hd
  have hone := one_cast_pos
  rw [← value_mul_one] at hself
  rw [readsBack, beq_iff_eq]
  rcases h with ⟨hde, hem⟩ | ⟨hme, hed⟩
  · exact Nat.le_antisymm (hround.mono hself (mul_le_mul_of_nonneg_right hem hone.le))
      (hd.mono hround (mul_le_mul_of_nonneg_right hde hone.le))
  · exact Nat.le_antisymm (hround.mono hd (mul_le_mul_of_nonneg_right hed hone.le))
      (hself.mono hround (mul_le_mul_of_nonneg_right hme hone.le))

theorem digits_ne_zero_of_readsBack {m : Magnitude} (hm : m.units ≠ 0) {d : Decimal}
    (hd : m.readsBack d = true) : d.digits ≠ 0 := by
  intro hzero
  rw [readsBack_iff, Decimal.value, hzero, Nat.cast_zero, zero_mul, zero_mul] at hd
  have hself : IsRounding ((0 : ℕ) : ℚ) 0 := isRounding_self (Nat.dvd_zero _)
  exact hm (hd.unique (Nat.cast_zero (R := ℚ) ▸ hself))

/-! ## Where the digits begin -/

theorem pow_le_value {m : Magnitude} (hm : m.units ≠ 0) : 10 ^ (m.decimalPoint - 1) ≤ m.value := by
  have hunits : 0 < m.units := Nat.pos_of_ne_zero hm
  unfold decimalPoint
  rw [value, le_div_iff₀ one_cast_pos]
  split
  · rename_i hle
    have hwhole : m.units / one ≠ 0 := (Nat.div_pos hle one_pos).ne'
    have hpow := Nat.mul_le_of_le_div _ _ _ (Decimal.pow_length_digitsOf_le hwhole)
    have hlength : 1 ≤ (Decimal.digitsOf (m.units / one)).length := Nat.length_toDigits_pos
    rw [← Int.natCast_one, ← Int.natCast_sub hlength, zpow_natCast]
    exact_mod_cast hpow
  · have hpow := (Nat.div_lt_iff_lt_mul hunits).1
      (Decimal.lt_pow_length_digitsOf ((one - 1) / m.units))
    have hle : one ≤ 10 ^ (Decimal.digitsOf ((one - 1) / m.units)).length * m.units := by omega
    rw [sub_right_comm, sub_self, zero_sub, zpow_neg, zpow_natCast, inv_mul_le_iff₀ (by positivity)]
    exact_mod_cast hle

theorem value_lt_pow {m : Magnitude} (hm : m.units ≠ 0) : m.value < 10 ^ m.decimalPoint := by
  have hunits : 0 < m.units := Nat.pos_of_ne_zero hm
  unfold decimalPoint
  rw [value, div_lt_iff₀ one_cast_pos]
  split
  · have hpow := (Nat.div_lt_iff_lt_mul one_pos).1 (Decimal.lt_pow_length_digitsOf (m.units / one))
    rw [zpow_natCast]
    exact_mod_cast hpow
  · rename_i hlt
    have hwhole : (one - 1) / m.units ≠ 0 := (Nat.div_pos (by omega) hunits).ne'
    have hpow := Nat.mul_le_of_le_div _ _ _ (Decimal.pow_length_digitsOf_le hwhole)
    have hlength : 1 ≤ (Decimal.digitsOf ((one - 1) / m.units)).length := Nat.length_toDigits_pos
    have hle : 10 ^ ((Decimal.digitsOf ((one - 1) / m.units)).length - 1) * m.units < one := by
      have hone := one_pos
      omega
    rw [← neg_sub, zpow_neg, ← Int.natCast_one, ← Int.natCast_sub hlength, zpow_natCast,
      lt_inv_mul_iff₀ (by positivity)]
    exact_mod_cast hle

/-! ## Neighbours -/

/-- The quotient whose integer part is taken is the magnitude as a multiple of the power of ten. -/
theorem floorOn_quotient (m : Magnitude) (e : ℤ) :
    ((m.units * Nat.pow 10 (-e).toNat : ℕ) : ℚ) / (one * Nat.pow 10 e.toNat : ℕ) = m.value / 10 ^ e := by
  rw [Decimal.ten_zpow_eq, value]
  simp only [Nat.pow_eq, Nat.cast_mul, Nat.cast_pow, Nat.cast_ofNat]
  generalize (one : ℚ) = unit
  field_simp

theorem floorOn_value_le (m : Magnitude) (e : ℤ) : (m.floorOn e).value ≤ m.value := by
  exact (le_div_iff₀ (Decimal.ten_zpow_pos e)).1 ((Nat.cast_div_le).trans_eq (floorOn_quotient m e))

/-- The next multiple of the power of ten. -/
def nextOn (m : Magnitude) (e : ℤ) : Decimal := { m.floorOn e with digits := (m.floorOn e).digits + 1 }

theorem value_lt_nextOn (m : Magnitude) (e : ℤ) : m.value < (m.nextOn e).value := by
  have hden : 0 < one * Nat.pow 10 e.toNat := Nat.mul_pos one_pos (Nat.pow_pos (by decide))
  have hlt := Nat.cast_lt (α := ℚ).2 (Nat.lt_mul_div_succ (m.units * Nat.pow 10 (-e).toNat) hden)
  refine (div_lt_iff₀ (Decimal.ten_zpow_pos e)).1 ?_
  rw [← floorOn_quotient, div_lt_iff₀' (Nat.cast_pos.2 hden), ← Nat.cast_mul]
  exact hlt

/-- No multiple of the power of ten lies strictly between the two neighbours. -/
theorem mul_le_floorOn_or_nextOn_le (m : Magnitude) (e : ℤ) (c : ℕ) :
    c * 10 ^ e ≤ (m.floorOn e).value ∨ (m.nextOn e).value ≤ c * 10 ^ e := by
  have hpos := (Decimal.ten_zpow_pos e).le
  rcases Nat.lt_or_ge (m.floorOn e).digits c with hlt | hle
  · exact .inr (mul_le_mul_of_nonneg_right (Nat.cast_le.2 hlt) hpos)
  · exact .inl (mul_le_mul_of_nonneg_right (Nat.cast_le.2 hle) hpos)

variable {m : Magnitude}

theorem pow_le_value_floorOn (hm : m.units ≠ 0) {n : ℕ} (hn : 0 < n) :
    10 ^ (m.decimalPoint - 1) ≤ (m.floorOn (m.decimalPoint - n)).value := by
  have hexponent : m.decimalPoint - 1 = m.decimalPoint - n + (n - 1 : ℕ) := by omega
  have hpow : (10 : ℚ) ^ (m.decimalPoint - 1) =
      ((10 ^ (n - 1) : ℕ) : ℚ) * 10 ^ (m.decimalPoint - n) := by
    rw [hexponent, Decimal.ten_zpow_add_natCast]
  rw [hpow]
  refine (mul_le_floorOn_or_nextOn_le m _ _).resolve_right (not_le.2 ?_)
  rw [← hpow]
  exact (pow_le_value hm).trans_lt (value_lt_nextOn m _)

/-- The power of ten above the magnitude lies on every grid that is searched. -/
theorem ten_zpow_decimalPoint (m : Magnitude) (n : ℕ) :
    (10 : ℚ) ^ m.decimalPoint = ((10 ^ n : ℕ) : ℚ) * 10 ^ (m.decimalPoint - n) := by
  rw [← Decimal.ten_zpow_add_natCast, sub_add_cancel]

theorem value_nextOn_le_pow (hm : m.units ≠ 0) (n : ℕ) :
    (m.nextOn (m.decimalPoint - n)).value ≤ 10 ^ m.decimalPoint := by
  rw [ten_zpow_decimalPoint m n]
  refine (mul_le_floorOn_or_nextOn_le m _ _).resolve_left (not_le.2 ?_)
  rw [← ten_zpow_decimalPoint]
  exact (floorOn_value_le m _).trans_lt (value_lt_pow hm)

theorem digits_nextOn_le (hm : m.units ≠ 0) (n : ℕ) :
    (m.nextOn (m.decimalPoint - n)).digits ≤ 10 ^ n := by
  have hle := value_nextOn_le_pow hm n
  rw [ten_zpow_decimalPoint m n] at hle
  exact Nat.cast_le.1 (le_of_mul_le_mul_right hle (Decimal.ten_zpow_pos _))

/-- **No decimal of `n` digits lies strictly between the neighbours** on the grid of `n` digits. -/
theorem value_le_floorOn_or_nextOn_le (hm : m.units ≠ 0) {d : Decimal} (hd : d.digits ≠ 0) :
    let e := m.decimalPoint - (Decimal.digitsOf d.digits).length
    d.value ≤ (m.floorOn e).value ∨ (m.nextOn e).value ≤ d.value := by
  intro e
  have hlength : 0 < (Decimal.digitsOf d.digits).length := Nat.length_toDigits_pos
  rcases lt_trichotomy d.exponent e with hlt | heq | hgt
  · refine .inl (le_trans (le_trans d.value_lt_pow.le ?_) (pow_le_value_floorOn hm hlength))
    exact Decimal.ten_zpow_le (by omega)
  · rw [Decimal.value, heq]
    exact mul_le_floorOn_or_nextOn_le m e d.digits
  · refine .inr (le_trans (le_trans (value_nextOn_le_pow hm _) ?_) (Decimal.pow_le_value hd))
    exact Decimal.ten_zpow_le (by omega)

/-! ## The search -/

theorem closer_eq (m : Magnitude) (tie : Tie) (lower upper : Decimal) :
    m.closer tie lower upper = lower ∨ m.closer tie lower upper = upper := by
  unfold closer
  simp only
  split
  · exact .inl rfl
  · split
    · exact .inr rfl
    · cases tie with
      | up => exact .inr rfl
      | even =>
        simp only
        split
        · exact .inl rfl
        · exact .inr rfl

theorem withDigits?_eq (m : Magnitude) (tie : Tie) (n : ℕ) :
    m.withDigits? tie n =
      let lower := m.floorOn (m.decimalPoint - n)
      let upper := m.nextOn (m.decimalPoint - n)
      if m.readsBack lower = true then
        if m.readsBack upper = true then some (m.closer tie lower upper) else some lower
      else if m.readsBack upper = true then some upper else none := rfl

/-- What the search finds on a grid is one of the neighbours, and it reads back. -/
theorem of_withDigits?_eq_some {tie : Tie} {n : ℕ} {d : Decimal} (h : m.withDigits? tie n = some d) :
    m.readsBack d = true ∧
      (d = m.floorOn (m.decimalPoint - n) ∨ d = m.nextOn (m.decimalPoint - n)) := by
  rw [withDigits?_eq] at h
  simp only at h
  split at h
  · rename_i hlower
    split at h
    · rename_i hupper
      obtain rfl := Option.some_inj.1 h
      rcases closer_eq m tie _ _ with hcloser | hcloser <;> rw [hcloser]
      · exact ⟨hlower, .inl rfl⟩
      · exact ⟨hupper, .inr rfl⟩
    · obtain rfl := Option.some_inj.1 h
      exact ⟨hlower, .inl rfl⟩
  · split at h
    · rename_i hupper
      obtain rfl := Option.some_inj.1 h
      exact ⟨hupper, .inr rfl⟩
    · cases h

/-- It finds something if one of the neighbours reads back. -/
theorem isSome_withDigits? {tie : Tie} {n : ℕ}
    (h : m.readsBack (m.floorOn (m.decimalPoint - n)) = true ∨
      m.readsBack (m.nextOn (m.decimalPoint - n)) = true) :
    (m.withDigits? tie n).isSome = true := by
  rw [withDigits?_eq]
  simp only
  split
  · split <;> rfl
  · rename_i hlower
    rw [if_pos (h.resolve_left hlower)]
    rfl

/-- **If a decimal of `n` digits reads back, something is found** among those of `n` digits. -/
theorem isSome_withDigits?_of_readsBack (hm : m.units ≠ 0) (tie : Tie) {d : Decimal}
    (hd : m.readsBack d = true) :
    (m.withDigits? tie (Decimal.digitsOf d.digits).length).isSome = true := by
  refine isSome_withDigits? ?_
  rcases value_le_floorOn_or_nextOn_le hm (digits_ne_zero_of_readsBack hm hd) with h | h
  · exact .inl (readsBack_of_between hd (.inl ⟨h, floorOn_value_le m _⟩))
  · exact .inr (readsBack_of_between hd (.inr ⟨(value_lt_nextOn m _).le, h⟩))

theorem value_nextOn (m : Magnitude) (e : ℤ) : (m.nextOn e).value = (m.floorOn e).value + 10 ^ e := by
  show (((m.floorOn e).digits + 1 : ℕ) : ℚ) * 10 ^ e = (m.floorOn e).digits * 10 ^ e + 10 ^ e
  push_cast
  ring

/-- A decimal reads back if its distance is less than a `2⁵⁴`th of the magnitude. -/
theorem readsBack_of_close {d : Decimal} (h : 2 ^ 54 * |m.value - d.value| < m.value) :
    m.readsBack d = true := by
  rw [readsBack, beq_iff_eq]
  refine d.isRounding_nearestUnits.eq_of_close m.aligned ?_
  rw [← value_mul_one, ← sub_mul, abs_mul, abs_of_pos one_cast_pos, ← mul_assoc]
  exact mul_lt_mul_of_pos_right h one_cast_pos

/-- **Seventeen digits are enough.** -/
theorem isSome_withDigits?_seventeen (hm : m.units ≠ 0) (tie : Tie) :
    (m.withDigits? tie 17).isSome = true := by
  have hexponent : m.decimalPoint - 1 = m.decimalPoint - (17 : ℕ) + (16 : ℕ) := by omega
  have hgap_le := pow_le_value hm
  rw [hexponent, Decimal.ten_zpow_add_natCast] at hgap_le
  refine isSome_withDigits? ?_
  generalize m.decimalPoint - (17 : ℕ) = e at hgap_le ⊢
  have hgap_pos := Decimal.ten_zpow_pos e
  have hbelow := floorOn_value_le m e
  have habove := (value_lt_nextOn m e).le
  have hnext := value_nextOn m e
  push_cast at hgap_le
  rcases le_total (2 * m.value) ((m.floorOn e).value + (m.nextOn e).value) with h | h
  · refine .inl (readsBack_of_close ?_)
    rw [abs_of_nonneg (sub_nonneg.2 hbelow)]
    linarith
  · refine .inr (readsBack_of_close ?_)
    rw [abs_of_nonpos (sub_nonpos.2 habove)]
    linarith

/-- The shortest decimal is what is found on the first grid where something is. -/
theorem exists_withDigits?_eq_some (hm : m.units ≠ 0) (tie : Tie) :
    ∃ n d, 0 < n ∧ n ≤ 17 ∧ m.withDigits? tie n = some d ∧ m.shortest tie = d.trim ∧
      ∀ k, 0 < k → k < n → m.withDigits? tie k = none := by
  have hsome : ((List.range' 1 17).findSome? (m.withDigits? tie)).isSome = true :=
    List.findSome?_isSome_iff.2 ⟨17, by decide, isSome_withDigits?_seventeen hm tie⟩
  obtain ⟨d, hd⟩ := Option.isSome_iff_exists.1 hsome
  have hshortest : m.shortest tie = d.trim := by
    unfold shortest
    rw [hd, Option.getD_some]
  obtain ⟨before, n, after, hrange, hn, hbefore⟩ := List.findSome?_eq_some_iff.1 hd
  obtain ⟨k, hk, rfl, hafter⟩ := List.range'_eq_append_iff.1 hrange
  obtain ⟨rfl, hlength, _⟩ := List.range'_eq_cons_iff.1 hafter.symm
  have hk' : 1 + k * 1 ≤ 17 := by omega
  refine ⟨1 + k * 1, d, by omega, hk', hn, hshortest, fun i hi hik => hbefore i ?_⟩
  rw [List.mem_range'_1]
  omega

/-- **The shortest decimal reads back.** -/
theorem readsBack_shortest (hm : m.units ≠ 0) (tie : Tie) : m.readsBack (m.shortest tie) = true := by
  obtain ⟨n, d, _, _, hd, hshortest, _⟩ := exists_withDigits?_eq_some hm tie
  rw [hshortest, readsBack_iff, Decimal.value_trim, ← readsBack_iff]
  exact (of_withDigits?_eq_some hd).1

/-- **No decimal that reads back has fewer digits.** -/
theorem length_digitsOf_shortest_le (hm : m.units ≠ 0) (tie : Tie) {d : Decimal}
    (hd : m.readsBack d = true) :
    (Decimal.digitsOf (m.shortest tie).digits).length ≤ (Decimal.digitsOf d.digits).length := by
  obtain ⟨n, e, hn, _, he, hshortest, hfirst⟩ := exists_withDigits?_eq_some hm tie
  have hle : n ≤ (Decimal.digitsOf d.digits).length := by
    by_contra hlt
    have hsome := isSome_withDigits?_of_readsBack hm tie hd
    rw [hfirst (Decimal.digitsOf d.digits).length Nat.length_toDigits_pos (Nat.lt_of_not_le hlt)] at hsome
    cases hsome
  rw [hshortest]
  refine Nat.le_trans (Decimal.length_digitsOf_trim_le hn ?_) hle
  have hnext := digits_nextOn_le hm n
  rcases (of_withDigits?_eq_some he).2 with rfl | rfl
  · exact Nat.le_trans (Nat.le_succ _) hnext
  · exact hnext

end Magnitude
end ExprLang
