/-!
# Rounding to binary64

Every finite binary64 number is a whole multiple of the least positive one, `2⁻¹⁰⁷⁴`.  So a finite
magnitude is a *count of units*, a natural number, and the arithmetic of these numbers is integer
arithmetic followed by one rounding.  Nothing here unpacks a word into an exponent and a mantissa:
the spacing of the numbers around a count is read off the count's own binary length.

## The grid

A count of fewer than 54 binary digits is a number as it stands.  A longer one must end in zeros:
with `k` binary digits beyond the first 53, only the multiples of `2ᵏ` are numbers.  `spacing` is that
power of two, `1` for short counts, and a count is a number exactly when its spacing divides it and it
stays below `bound`.

## One rounding function

`nearest num den` is the grid point closest to `num / den`, of two equally close ones the one with an
even multiplier.  Sums, products, quotients, remainders, conversions from integers and the reading of
decimals all form an exact quotient first and call it once, so there is one place where digits are lost.
That the result lies on the grid is `spacing_dvd_nearest`: rounding up may lengthen the count by one
binary digit, but then the result is a power of two.

Definitions spell powers `Nat.pow`: what `^` stands for depends on the libraries in scope.
-/

namespace ExprLang

/-- The whole number closest to `num / den`; of two equally close ones, the even one. -/
def roundQuotient (num den : Nat) : Nat :=
  let q := num / den
  let r := num % den
  if 2 * r < den then q
  else if den < 2 * r then q + 1
  else q + q % 2

/-- The rounded quotient is the quotient or its successor. -/
theorem roundQuotient_le (num den : Nat) : roundQuotient num den ≤ num / den + 1 := by
  unfold roundQuotient
  have := Nat.mod_lt (num / den) (by decide : 0 < 2)
  simp only
  split
  · omega
  · split <;> omega

namespace Magnitude

/-- The distance between the numbers around `count`: one unit for up to 53 binary digits, doubled for
each further digit. -/
def spacing (count : Nat) : Nat := Nat.pow 2 (count.log2 - 52)

/-- How many binary digits of a count stand behind the point: a unit is `2⁻¹⁰⁷⁴`. -/
def fractionDigits : Nat := 1074

/-- The number 1, in units. -/
def one : Nat := Nat.pow 2 fractionDigits

/-- How many binary digits a finite count may have. -/
def maximalDigits : Nat := 2098

/-- The first count that is too large to be finite. -/
def bound : Nat := Nat.pow 2 maximalDigits

/-- The grid point nearest to `num / den`, in units. -/
def nearest (num den : Nat) : Nat :=
  let gap := spacing (num / den)
  roundQuotient num (den * gap) * gap

theorem spacing_pos (count : Nat) : 0 < spacing count := Nat.pow_pos (by decide)

theorem one_pos : 0 < one := by
  unfold one
  -- else the power is computed
  generalize fractionDigits = k
  exact Nat.two_pow_pos k

theorem bound_pos : 0 < bound := by
  unfold bound
  generalize maximalDigits = k
  exact Nat.two_pow_pos k

/-- A count has at most 53 binary digits before its spacing. -/
theorem div_spacing_lt (count : Nat) : count / spacing count < Nat.pow 2 53 := by
  rw [Nat.div_lt_iff_lt_mul (spacing_pos count), spacing, Nat.pow_eq, Nat.pow_eq, ← Nat.pow_add]
  exact Nat.lt_of_lt_of_le Nat.lt_log2_self (Nat.pow_le_pow_right (by decide) (by omega))

/-- What lies on a grid of `2 ^ k` and has at most 53 digits before it lies on its own grid. -/
theorem spacing_dvd_mul {m k : Nat} (h : m ≤ Nat.pow 2 53) :
    spacing (m * Nat.pow 2 k) ∣ m * Nat.pow 2 k := by
  rw [Nat.pow_eq] at h ⊢
  rcases Nat.lt_or_ge m (2 ^ 53) with hm | hm
  · -- the count is shorter than 53 + k digits, so its spacing is at most `2 ^ k`
    rcases Nat.eq_zero_or_pos m with rfl | hpos
    · simp
    · have hne : m * 2 ^ k ≠ 0 := Nat.ne_of_gt (Nat.mul_pos hpos (Nat.pow_pos (by decide)))
      have hlt : (m * 2 ^ k).log2 < 53 + k := by
        rw [Nat.log2_lt hne, Nat.pow_add]
        exact Nat.mul_lt_mul_of_pos_right hm (Nat.pow_pos (by decide))
      exact Nat.dvd_trans (Nat.pow_dvd_pow 2 (by omega)) (Nat.dvd_mul_left ..)
  · -- the count is the power of two just beyond
    obtain rfl : m = 2 ^ 53 := Nat.le_antisymm h hm
    rw [← Nat.pow_add, spacing, Nat.log2_two_pow, Nat.pow_eq]
    exact Nat.pow_dvd_pow 2 (by omega)

/-- **Rounding lands on the grid.** -/
theorem spacing_dvd_nearest (num den : Nat) : spacing (nearest num den) ∣ nearest num den := by
  refine spacing_dvd_mul (Nat.le_trans (roundQuotient_le ..) ?_)
  rw [← Nat.div_div_eq_div_mul]
  exact div_spacing_lt (num / den)

end Magnitude

/-- A finite magnitude: a count of units that lies on the grid and is not too large. -/
structure Magnitude where
  units : Nat
  aligned : Magnitude.spacing units ∣ units
  bounded : units < Magnitude.bound
  deriving DecidableEq

namespace Magnitude

theorem ext {a b : Magnitude} (h : a.units = b.units) : a = b := by
  cases a; cases b; cases h; rfl

instance : Repr Magnitude where
  reprPrec m _ := repr m.units

/-- The magnitude zero. -/
def zero : Magnitude := ⟨0, Nat.dvd_zero _, bound_pos⟩

@[simp] theorem zero_units : zero.units = 0 := rfl

/-- The magnitude nearest to `num / den` units, unless that is too large to be finite. -/
def ofRatio? (num den : Nat) : Option Magnitude :=
  if h : nearest num den < bound then some ⟨nearest num den, spacing_dvd_nearest num den, h⟩ else none

theorem ofRatio?_eq_some_iff {num den : Nat} {m : Magnitude} :
    ofRatio? num den = some m ↔ nearest num den = m.units := by
  unfold ofRatio?
  split
  · rename_i h
    constructor
    · intro e; cases e; rfl
    · intro e; exact congrArg some (Magnitude.ext e)
  · rename_i h
    constructor
    · intro e; cases e
    · intro e; exact absurd (e ▸ m.bounded) h

end Magnitude
end ExprLang
