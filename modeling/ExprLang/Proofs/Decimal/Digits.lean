import ExprLang.Decimal.Reading
import ExprLang.Proofs.Number.Rounding
import Mathlib.Algebra.Order.Field.Power
import Mathlib.Data.List.Induction
import Mathlib.Data.List.TakeWhile
import Mathlib.Data.Nat.Cast.Field

/-!
# Digits and what they denote

The value of a decimal is a rational number (`Decimal.value`), and all that the library does with a
decimal other than writing it depends on that number only.  Rounding does, because the quotient that is
rounded is the value in units (`ratio_eq`), and a rational number has one rounding
(`isRounding_nearestUnits`).  Zeros at the end of the digits can be dropped (`value_trim`).

The other half is about lists of digits.  Reading undoes writing (`digitsValue_digitsOf`), zeros in front
count for nothing, and each zero at the end counts for a factor of ten.  A natural number has at most `k`
digits if it is below `10ᵏ`, and dropping zeros makes the same true of `10ᵏ` itself
(`length_digitsOf_trim_le`).
-/

namespace ExprLang

/-! ## Lists of digits -/

theorem digitsValue_append (ds es : List Char) :
    digitsValue (ds ++ es) = digitsValue ds * 10 ^ es.length + digitsValue es := by
  unfold digitsValue
  rw [Nat.ofDigitChars_append, Nat.ofDigitChars_eq_ofDigitChars_zero, Nat.mul_comm]

theorem digitsValue_replicate_zero (k : ℕ) : digitsValue (List.replicate k '0') = 0 := by
  unfold digitsValue
  rw [Nat.ofDigitChars_replicate_zero, Nat.mul_zero]

theorem digitsValue_zeros_append (k : ℕ) (ds : List Char) :
    digitsValue (List.replicate k '0' ++ ds) = digitsValue ds := by
  rw [digitsValue_append, digitsValue_replicate_zero, Nat.zero_mul, Nat.zero_add]

theorem digitsValue_append_zeros (ds : List Char) (k : ℕ) :
    digitsValue (ds ++ List.replicate k '0') = digitsValue ds * 10 ^ k := by
  rw [digitsValue_append, digitsValue_replicate_zero, List.length_replicate, Nat.add_zero]

/-- As many digits as there are bound what they denote. -/
theorem digitsValue_lt {ds : List Char} (h : ∀ c ∈ ds, c.isDigit = true) :
    digitsValue ds < 10 ^ ds.length := by
  induction ds using List.reverseRecOn with
  | nil => exact Nat.one_pos
  | append_singleton ds c ih =>
    have hinit := ih fun d hd => h d (List.mem_append_left [c] hd)
    have hlast : digitsValue [c] < 10 := by
      have hc : c.isDigit = true := h c (by simp)
      unfold digitsValue
      rw [Nat.ofDigitChars_cons, Nat.ofDigitChars_nil]
      have hle : c.toNat ≤ 57 := (Char.isDigit_iff_toNat.1 hc).2
      have hzero : '0'.toNat = 48 := rfl
      omega
    rw [digitsValue_append, List.length_append, List.length_singleton, Nat.pow_succ]
    omega

namespace Decimal

theorem digitsValue_digitsOf (n : ℕ) : digitsValue (digitsOf n) = n := Nat.ofDigitChars_ten_toDigits

theorem length_digitsOf_le_iff {n k : ℕ} (hk : 0 < k) : (digitsOf n).length ≤ k ↔ n < 10 ^ k :=
  Nat.length_toDigits_le_iff (by decide) hk

theorem lt_pow_length_digitsOf (n : ℕ) : n < 10 ^ (digitsOf n).length :=
  (length_digitsOf_le_iff Nat.length_toDigits_pos).1 (Nat.le_refl _)

theorem pow_length_digitsOf_le {n : ℕ} (hn : n ≠ 0) : 10 ^ ((digitsOf n).length - 1) ≤ n := by
  by_contra hlt
  rw [Nat.not_le] at hlt
  rcases Nat.eq_zero_or_pos ((digitsOf n).length - 1) with hzero | hpos
  · rw [hzero] at hlt
    exact hn (Nat.lt_one_iff.1 hlt)
  · have hle := (length_digitsOf_le_iff hpos).2 hlt
    omega

/-! ## The value of a decimal -/

/-- The rational number that a decimal denotes. -/
def value (d : Decimal) : ℚ := d.digits * 10 ^ d.exponent

theorem value_nonneg (d : Decimal) : 0 ≤ d.value :=
  mul_nonneg (Nat.cast_nonneg _) (zpow_nonneg (by decide) _)

theorem ten_zpow_pos (e : ℤ) : (0 : ℚ) < 10 ^ e := zpow_pos (by decide) e

theorem ten_zpow_add_natCast (e : ℤ) (n : ℕ) : (10 : ℚ) ^ (e + n) = ((10 ^ n : ℕ) : ℚ) * 10 ^ e := by
  rw [zpow_add₀ (by decide), zpow_natCast, mul_comm, Nat.cast_pow, Nat.cast_ofNat]

theorem ten_zpow_le {e f : ℤ} (h : e ≤ f) : (10 : ℚ) ^ e ≤ 10 ^ f :=
  zpow_le_zpow_right₀ (by decide) h

theorem value_lt_pow (d : Decimal) : d.value < 10 ^ (d.exponent + (digitsOf d.digits).length) := by
  rw [ten_zpow_add_natCast]
  exact mul_lt_mul_of_pos_right (Nat.cast_lt.2 (lt_pow_length_digitsOf d.digits)) (ten_zpow_pos _)

theorem pow_le_value {d : Decimal} (h : d.digits ≠ 0) :
    10 ^ (d.exponent + ((digitsOf d.digits).length - 1 : ℕ)) ≤ d.value := by
  rw [ten_zpow_add_natCast]
  exact mul_le_mul_of_nonneg_right (Nat.cast_le.2 (pow_length_digitsOf_le h)) (ten_zpow_pos _).le

/-- A power of ten as a quotient of natural powers, of which one at least is 1. -/
theorem ten_zpow_eq (e : ℤ) : (10 : ℚ) ^ e = 10 ^ e.toNat / 10 ^ (-e).toNat := by
  rcases Int.le_total 0 e with h | h
  · obtain ⟨n, rfl⟩ := Int.eq_ofNat_of_zero_le h
    rw [Int.toNat_neg_natCast, pow_zero, div_one, Int.toNat_natCast, zpow_natCast]
  · obtain ⟨n, hn⟩ := Int.eq_ofNat_of_zero_le (Int.neg_nonneg_of_nonpos h)
    obtain rfl : e = -n := by omega
    rw [Int.toNat_neg_natCast, pow_zero, Int.neg_neg, Int.toNat_natCast, zpow_neg, zpow_natCast, one_div]

/-- **What is rounded is the value**, counted in units. -/
theorem ratio_eq (d : Decimal) : (d.ratio.1 : ℚ) / d.ratio.2 = d.value * Magnitude.one := by
  unfold ratio value
  rw [ten_zpow_eq]
  simp only [Nat.pow_eq]
  push_cast
  ring

theorem isRounding_nearestUnits (d : Decimal) :
    Magnitude.IsRounding (d.value * Magnitude.one) d.nearestUnits := by
  rw [← ratio_eq]
  exact Magnitude.isRounding_nearest _ (Nat.pow_pos (by decide))

/-! ## Zeros at the end -/

/-- How many zeros the digits of a number end in. -/
def trailingZeros (n : ℕ) : ℕ := ((digitsOf n).reverse.takeWhile (· == '0')).length

theorem trim_eq (d : Decimal) :
    d.trim = ⟨d.digits / 10 ^ trailingZeros d.digits, d.exponent + trailingZeros d.digits⟩ := rfl

theorem pow_trailingZeros_dvd (n : ℕ) : 10 ^ trailingZeros n ∣ n := by
  have hzeros : (digitsOf n).reverse.takeWhile (· == '0') = List.replicate (trailingZeros n) '0' :=
    List.eq_replicate_iff.2 ⟨rfl, fun c hc => eq_of_beq (List.mem_takeWhile_imp (p := (· == '0')) hc)⟩
  have hdigits : digitsOf n =
      ((digitsOf n).reverse.dropWhile (· == '0')).reverse ++ List.replicate (trailingZeros n) '0' := by
    rw [← List.reverse_replicate, ← hzeros, ← List.reverse_append, List.takeWhile_append_dropWhile,
      List.reverse_reverse]
  have hvalue := digitsValue_digitsOf n
  rw [hdigits, digitsValue_append_zeros] at hvalue
  exact ⟨_, hvalue.symm.trans (Nat.mul_comm _ _)⟩

/-- A multiple of ten ends in a zero. -/
theorem trailingZeros_pos {n : ℕ} (hn : n ≠ 0) (h : 10 ∣ n) : 0 < trailingZeros n := by
  have hbase : 10 ≤ n := Nat.le_of_dvd (Nat.pos_of_ne_zero hn) h
  have hlast : digitsOf n = digitsOf (n / 10) ++ ['0'] := by
    unfold digitsOf
    rw [Nat.toDigits_of_base_le (by decide) hbase, Nat.mod_eq_zero_of_dvd h]
    rfl
  unfold trailingZeros
  rw [hlast, List.reverse_append, List.reverse_singleton, List.singleton_append,
    List.takeWhile_cons_of_pos rfl]
  exact Nat.succ_pos _

/-- **Dropping zeros keeps the value.** -/
theorem value_trim (d : Decimal) : d.trim.value = d.value := by
  have hten : (10 : ℚ) ≠ 0 := by decide
  rw [trim_eq, value, value, Nat.cast_div (pow_trailingZeros_dvd d.digits)
    (Nat.cast_ne_zero.2 (pow_ne_zero _ (by decide))), zpow_add₀ hten, zpow_natCast]
  push_cast
  field_simp

theorem length_digitsOf_trim_le {d : Decimal} {k : ℕ} (hk : 0 < k) (h : d.digits ≤ 10 ^ k) :
    (digitsOf d.trim.digits).length ≤ k := by
  rw [length_digitsOf_le_iff hk, trim_eq]
  rcases Nat.lt_or_eq_of_le h with hlt | heq
  · exact Nat.lt_of_le_of_lt (Nat.div_le_self _ _) hlt
  · rw [heq]
    have hten : 10 ∣ 10 ^ k := dvd_pow_self 10 hk.ne'
    have hzeros := trailingZeros_pos (pow_ne_zero k (by decide)) hten
    exact Nat.div_lt_self (Nat.pow_pos (by decide)) (Nat.one_lt_pow hzeros.ne' (by decide))

end Decimal
end ExprLang
