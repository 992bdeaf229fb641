import ExprLang.Proofs.Number.Nearest

/-!
# Integers among the numbers

Places, lengths and the bounds of ranges are integers, but the language hands them around as numbers.
This module says what is lost on the way there and back.

A finite number is an integer just if its level is a multiple of `Magnitude.one`, and `integerPart` is
the quotient of the level by it, toward zero.  `truncated` is the integer part after clamping
(`truncated_eq`), so it is the integer part itself for everything that lies among the 64-bit
integers.

* **Up to `2 ^ 53` nothing is lost** (`level_ofInt_of_natAbs_le`, `truncated_ofInt`), and differences
  within that bound are exact (`truncated_sub_ofInt`).
* **Beyond it, an integer stays beyond it** (`IsNearest.truncated_mono`).  It may become a different
  integer, but none that could be the place of an element in a value with fewer than `2 ^ 53` of them.
* **A number that is an integer already comes back** as far as the order can tell
  (`level_ofInt_of_level`); zero may lose its sign.  Which numbers `integer?` accepts is said by
  `integer?_eq_some_iff`.
-/

namespace ExprLang

namespace Magnitude

/-- A count on the grid is the count nearest to it. -/
theorem nearest_eq_self {m : Nat} (h : spacing m ∣ m) : nearest m 1 = m := by
  have hclosest := natAbs_nearest_mul_sub_le m (by decide : 0 < 1) h
  omega

theorem ofRatio?_units (m : Magnitude) : ofRatio? m.units 1 = some m :=
  ofRatio?_eq_some_iff.2 (nearest_eq_self m.aligned)

end Magnitude

namespace Number
open Magnitude (one)

/-- The bound up to which all integers are numbers, `2 ^ 53`. -/
def exactBound : Nat := 0x20000000000000

/-- The integer part of a finite number, toward zero. -/
def integerPart (x : Number) : Int := x.level.tdiv one

/-! ## Levels and integer parts -/

theorem signed_tdiv (s : Bool) (n k : Nat) : (signed s n).tdiv k = signed s (n / k) := by
  cases s with
  | false => exact (Int.ofNat_tdiv n k).symm
  | true => rw [signed_true, signed_true, Int.neg_tdiv, Int.ofNat_tdiv]

/-- **Truncating is taking the integer part** and clamping it to 64 bits. -/
theorem truncated_eq {x : Number} (h : x.isFinite = true) :
    x.truncated = clampWord x.integerPart := by
  cases x with
  | nan => cases h
  | infinite s => cases h
  | finite s m => rw [integerPart, level_finite, signed_tdiv, truncated]

theorem integerPart_of_level {x : Number} {n : Int} (h : x.level = n * one) :
    x.integerPart = n := by
  have hone : (one : Int) ≠ 0 := by
    have := Magnitude.one_pos
    omega
  rw [integerPart, h, Int.mul_tdiv_cancel n hone]

theorem truncated_of_level {x : Number} {n : Int} (hfinite : x.isFinite = true)
    (h : x.level = n * one) (hleast : leastWord ≤ n) (hgreatest : n ≤ greatestWord) :
    x.truncated = n := by
  rw [truncated_eq hfinite, integerPart_of_level h, clampWord_of_mem hleast hgreatest]

/-! ## Integers as numbers -/

/-- What rounds a count on the grid is the number with that count. -/
theorem ofRatio_units (s : Bool) (m : Magnitude) : ofRatio s m.units 1 = .finite s m := by
  unfold ofRatio
  rw [Magnitude.ofRatio?_units]

/-- An integer whose count lies on the grid is the number with that count. -/
theorem ofInt_eq_finite {n : Int} {m : Magnitude} (h : n.natAbs * one = m.units) :
    ofInt n = .finite (n < 0) m := by
  rw [ofInt, h, ofRatio_units]

theorem level_ofInt_of_units {n : Int} {m : Magnitude} (h : n.natAbs * one = m.units) :
    (ofInt n).isFinite = true ∧ (ofInt n).level = n * one := by
  rw [ofInt_eq_finite h, level_finite, ← h, signed_natAbs_mul]
  exact ⟨rfl, rfl⟩

theorem natAbs_mul_of_signed_eq {s : Bool} {m k : Nat} {n : Int} (h : signed s m = n * k) :
    n.natAbs * k = m := by
  rw [← natAbs_signed s m, h, Int.natAbs_mul, Int.natAbs_natCast]

/-- A finite number that is an integer is the number of that integer, up to the sign of zero. -/
theorem level_ofInt_of_level {x : Number} {n : Int} (hfinite : x.isFinite = true)
    (h : x.level = n * one) : (ofInt n).level = x.level := by
  cases x with
  | nan => cases hfinite
  | infinite s => cases hfinite
  | finite s m =>
    rw [(level_ofInt_of_units (natAbs_mul_of_signed_eq h)).2, h]

theorem spacing_dvd_mul_one {k : Nat} (h : k ≤ exactBound) :
    Magnitude.spacing (k * one) ∣ k * one := by
  unfold one
  -- else the power is computed
  generalize Magnitude.fractionDigits = d
  exact Magnitude.spacing_dvd_mul h

/-- A small integer, as a count of units. -/
def whole (k : Nat) (h : k ≤ exactBound) : Magnitude where
  units := k * one
  aligned := spacing_dvd_mul_one h
  bounded :=
    Nat.lt_of_le_of_lt (Nat.le_mul_of_pos_left (k * one) (by decide : 0 < 2))
      (Magnitude.two_mul_mul_one_lt_bound (Nat.le_trans h (by decide)))

/-- **Up to `2 ^ 53` every integer is a number.** -/
theorem level_ofInt_of_natAbs_le {n : Int} (h : n.natAbs ≤ exactBound) :
    (ofInt n).isFinite = true ∧ (ofInt n).level = n * one :=
  level_ofInt_of_units (m := whole n.natAbs h) rfl

theorem mem_word_of_natAbs_le {n : Int} (h : n.natAbs ≤ exactBound) :
    leastWord ≤ n ∧ n ≤ greatestWord := by
  unfold exactBound at h
  unfold leastWord greatestWord
  omega

theorem truncated_ofInt {n : Int} (h : n.natAbs ≤ exactBound) : (ofInt n).truncated = n := by
  obtain ⟨hfinite, hlevel⟩ := level_ofInt_of_natAbs_le h
  obtain ⟨hleast, hgreatest⟩ := mem_word_of_natAbs_le h
  exact truncated_of_level hfinite hlevel hleast hgreatest

/-! ## Integers of any size -/

/-- What is nearest to an integer is not on the other side of a number that is an integer. -/
theorem IsNearest.level_mono {x y : Number} {b n : Int} (hx : x.IsNearest n)
    (hy : y.isFinite = true) (hlevel : y.level = b * one) :
    (b ≤ n → b * one ≤ x.level) ∧ (n ≤ b → x.level ≤ b * one) := by
  have hclosest := hx.2 y hy
  rw [hlevel] at hclosest
  have hone : (0 : Int) ≤ one := Int.natCast_nonneg one
  constructor
  · intro h
    have hmul : b * one ≤ n * one := Int.mul_le_mul_of_nonneg_right h hone
    omega
  · intro h
    have hmul : n * one ≤ b * one := Int.mul_le_mul_of_nonneg_right h hone
    omega

theorem integerPart_mono {x y : Number} (h : x.level ≤ y.level) :
    x.integerPart ≤ y.integerPart :=
  Int.tdiv_le_tdiv (Int.natCast_pos.2 Magnitude.one_pos) h

/-- **An integer does not cross a small one on its way through a number.** -/
theorem IsNearest.truncated_mono {x : Number} {b n : Int} (hx : x.IsNearest n)
    (hb : b.natAbs ≤ exactBound) : (b ≤ n → b ≤ x.truncated) ∧ (n ≤ b → x.truncated ≤ b) := by
  obtain ⟨hfinite, hlevel⟩ := level_ofInt_of_natAbs_le hb
  obtain ⟨habove, hbelow⟩ := hx.level_mono hfinite hlevel
  obtain ⟨hleast, hgreatest⟩ := mem_word_of_natAbs_le hb
  have hpart := integerPart_of_level hlevel
  rw [truncated_eq hx.1, clampWord]
  rw [← hlevel] at habove hbelow
  constructor
  · intro h
    have hle := integerPart_mono (habove h)
    omega
  · intro h
    have hle := integerPart_mono (hbelow h)
    omega

/-! ## Sums on the grid -/

theorem signed_natAbs (n : Int) : signed (n < 0) n.natAbs = n := by
  have h := signed_natAbs_mul n 1
  rwa [Nat.mul_one, Int.natCast_one, Int.mul_one] at h

/-- A count of units on the grid becomes the number with that count. -/
theorem level_ofUnits {count : Int} {m : Magnitude} (zeroNegative : Bool)
    (h : count.natAbs = m.units) :
    (ofUnits zeroNegative count).isFinite = true ∧ (ofUnits zeroNegative count).level = count := by
  unfold ofUnits
  split
  · rename_i hzero
    rw [hzero, signedZero, level_finite, Magnitude.zero_units, signed_zero]
    exact ⟨rfl, rfl⟩
  · rw [h, ofRatio_units, level_finite, ← h, signed_natAbs]
    exact ⟨rfl, rfl⟩

/-- **A sum that lies on the grid is exact.** -/
theorem level_add {x y : Number} {m : Magnitude} (hx : x.isFinite = true) (hy : y.isFinite = true)
    (h : (x.level + y.level).natAbs = m.units) :
    (x.add y).isFinite = true ∧ (x.add y).level = x.level + y.level := by
  cases x with
  | nan => cases hx
  | infinite s => cases hx
  | finite s a =>
    cases y with
    | nan => cases hy
    | infinite t => cases hy
    | finite t b => exact level_ofUnits (s && t) h

theorem level_neg {x : Number} (h : x.isFinite = true) :
    x.neg.isFinite = true ∧ x.neg.level = -x.level := by
  cases x with
  | nan => cases h
  | infinite s => cases h
  | finite s m =>
    refine ⟨rfl, ?_⟩
    cases s <;> simp [neg]

/-- **Differences of small integers are exact** if they are small themselves. -/
theorem truncated_sub_ofInt {a b : Int} (ha : a.natAbs ≤ exactBound) (hb : b.natAbs ≤ exactBound)
    (hab : (a - b).natAbs ≤ exactBound) : ((ofInt a).sub (ofInt b)).truncated = a - b := by
  obtain ⟨hfinite, hlevel⟩ := level_ofInt_of_natAbs_le ha
  obtain ⟨hfinite', hlevel'⟩ := level_ofInt_of_natAbs_le hb
  obtain ⟨hfinite'', hlevel''⟩ := level_neg hfinite'
  have hsum : (ofInt a).level + (ofInt b).neg.level = (a - b) * one := by
    rw [hlevel, hlevel'', hlevel', Int.sub_mul]
    omega
  have hunits : ((ofInt a).level + (ofInt b).neg.level).natAbs = (whole _ hab).units := by
    rw [hsum, Int.natAbs_mul, Int.natAbs_natCast]
    rfl
  obtain ⟨hadd, hlevel_add⟩ := level_add hfinite hfinite'' hunits
  obtain ⟨hleast, hgreatest⟩ := mem_word_of_natAbs_le hab
  exact truncated_of_level hadd (hlevel_add.trans hsum) hleast hgreatest

/-! ## Numbers that are integers -/

theorem signed_mul (s : Bool) (n k : Nat) : signed s (n * k) = signed s n * k := by
  cases s with
  | true => rw [signed_true, signed_true, Int.natCast_mul, Int.neg_mul]
  | false => rw [signed_false, signed_false, Int.natCast_mul]

/-- A signed count is a multiple just if the count is, and then of the signed quotient. -/
theorem signed_eq_mul_iff {s : Bool} {m k : Nat} {n : Int} (hk : 0 < k) :
    signed s m = n * k ↔ m % k = 0 ∧ signed s (m / k) = n := by
  constructor
  · intro h
    have hm : n.natAbs * k = m := natAbs_mul_of_signed_eq h
    have hk' : (k : Int) ≠ 0 := by omega
    rw [← signed_tdiv, h, Int.mul_tdiv_cancel n hk']
    exact ⟨Nat.mod_eq_zero_of_dvd ⟨n.natAbs, by rw [← hm, Nat.mul_comm]⟩, rfl⟩
  · rintro ⟨hmod, rfl⟩
    rw [← signed_mul, Nat.div_mul_cancel (Nat.dvd_of_mod_eq_zero hmod)]

/-- **The numbers that are 64-bit integers**, told by their levels. -/
theorem integer?_eq_some_iff {x : Number} {n : Int} : x.integer? = some n ↔
    x.isFinite = true ∧ x.level = n * one ∧ leastWord ≤ n ∧ n ≤ greatestWord := by
  cases x with
  | nan => exact iff_of_false nofun fun h => nomatch h.1
  | infinite s => exact iff_of_false nofun fun h => nomatch h.1
  | finite s m =>
    rw [level_finite, signed_eq_mul_iff Magnitude.one_pos]
    unfold integer?
    rw [Option.ite_none_right_eq_some, Option.some_inj]
    constructor
    · rintro ⟨⟨hmod, hleast, hgreatest⟩, rfl⟩
      exact ⟨rfl, ⟨hmod, rfl⟩, hleast, hgreatest⟩
    · rintro ⟨-, ⟨hmod, rfl⟩, hleast, hgreatest⟩
      exact ⟨⟨hmod, hleast, hgreatest⟩, rfl⟩

/-- The number is an integer of 64 bits: it is finite, it has no fraction, and it lies from
`-2 ^ 63` up to below `2 ^ 63`. -/
def FitsWord (x : Number) : Prop :=
  x.isFinite = true ∧ (one : Int) ∣ x.level ∧ leastWord * one ≤ x.level ∧
    x.level < (greatestWord + 1) * one

theorem fitsWord_iff {x : Number} : x.FitsWord ↔ ∃ n, x.integer? = some n := by
  have hone : (0 : Int) < one := Int.natCast_pos.2 Magnitude.one_pos
  simp only [integer?_eq_some_iff]
  constructor
  · rintro ⟨hfinite, ⟨n, hn⟩, hleast, hgreatest⟩
    rw [Int.mul_comm] at hn
    rw [hn] at hleast hgreatest
    exact ⟨n, hfinite, hn, Int.le_of_mul_le_mul_right hleast hone,
      Int.le_of_lt_add_one (Int.lt_of_mul_lt_mul_right hgreatest (Int.le_of_lt hone))⟩
  · rintro ⟨n, hfinite, hn, hleast, hgreatest⟩
    refine ⟨hfinite, ⟨n, by rw [hn, Int.mul_comm]⟩, ?_, ?_⟩
    · rw [hn]
      exact Int.mul_le_mul_of_nonneg_right hleast (Int.le_of_lt hone)
    · rw [hn]
      exact Int.mul_lt_mul_of_pos_right (Int.lt_add_one_of_le hgreatest) hone

end Number
end ExprLang
