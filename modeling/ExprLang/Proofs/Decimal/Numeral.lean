import ExprLang.Proofs.Decimal.Shortest
import ExprLang.Proofs.Text.Delimited

/-!
# Numerals are read exactly and rounded once

A `Numeral` is what the texts of numbers look like: a sign, digits, a point with digits behind it, and an
exponent, of which a digit on one side of the point is all that is needed.  Every numeral is read, and the
result is the correct rounding of the rational number that it denotes (`Number.exists_ofChars?`).

Reading has one step that is not exact.  Before anything is computed, `settleExponent` brings the exponent
near.  It changes an exponent only where the value is at least `10⁴⁰⁰`, at most `10⁻⁴⁰⁰`, or zero, and it
leaves the value there.  All numbers as large as that round to an infinity and all as small as that to
zero (`isRounding_infinite`, `isRounding_zero`), so the rounding is that of the exponent as it was written
(`isRounding_settled`).
-/

namespace ExprLang

/-! ## Rounding to numbers -/

namespace Number
open Magnitude (one)

/-- The correct rounding of a number with a given sign: as for magnitudes, and infinite if the rounded
magnitude is too large. -/
def IsRounding (negative : Bool) (q : ℚ) (x : Number) : Prop :=
  ∃ n, Magnitude.IsRounding (q * one) n ∧
    ((∃ m : Magnitude, m.units = n ∧ x = .finite negative m) ∨
      Magnitude.bound ≤ n ∧ x = .infinite negative)

/-- **A number has one rounding.** -/
theorem IsRounding.unique {negative : Bool} {q : ℚ} {x y : Number} (hx : x.IsRounding negative q)
    (hy : y.IsRounding negative q) : x = y := by
  obtain ⟨n, hn, hx⟩ := hx
  obtain ⟨k, hk, hy⟩ := hy
  obtain rfl := hn.unique hk
  rcases hx with ⟨a, ha, rfl⟩ | ⟨ha, rfl⟩ <;> rcases hy with ⟨b, hb, rfl⟩ | ⟨hb, rfl⟩
  · rw [Magnitude.ext (ha.trans hb.symm)]
  · exact absurd (ha ▸ a.bounded) (Nat.not_lt_of_le hb)
  · exact absurd (hb ▸ b.bounded) (Nat.not_lt_of_le ha)
  · rfl

/-- Rounding a quotient gives the number with the nearest count, or an infinity if there is none. -/
theorem ofRatio_cases (negative : Bool) (num den : ℕ) :
    (∃ m : Magnitude, m.units = Magnitude.nearest num den ∧
        ofRatio negative num den = .finite negative m) ∨
      Magnitude.bound ≤ Magnitude.nearest num den ∧ ofRatio negative num den = .infinite negative := by
  unfold ofRatio
  cases hround : Magnitude.ofRatio? num den with
  | some m => exact .inl ⟨m, (Magnitude.ofRatio?_eq_some_iff.1 hround).symm, rfl⟩
  | none =>
    refine .inr ⟨?_, rfl⟩
    unfold Magnitude.ofRatio? at hround
    by_contra hlt
    rw [dif_pos (Nat.lt_of_not_le hlt)] at hround
    cases hround

theorem isRounding_ofDecimal (negative : Bool) (d : Decimal) :
    (ofDecimal negative d).IsRounding negative d.value :=
  ⟨d.nearestUnits, d.isRounding_nearestUnits, ofRatio_cases negative d.ratio.1 d.ratio.2⟩

theorem isRounding_of_readsBack (negative : Bool) {m : Magnitude} {d : Decimal}
    (h : m.readsBack d = true) : (finite negative m).IsRounding negative d.value :=
  ⟨m.units, Magnitude.readsBack_iff.1 h, .inl ⟨m, rfl, rfl⟩⟩

theorem bound_le_pow_mul_one : Magnitude.bound ≤ 10 ^ 400 * one := by decide +kernel

theorem two_mul_one_lt_pow : 2 * one < 10 ^ 400 := by decide +kernel

theorem spacing_bound_dvd : Magnitude.spacing Magnitude.bound ∣ Magnitude.bound := by
  unfold Magnitude.bound
  -- else the power is computed
  generalize Magnitude.maximalDigits = k
  have h := Magnitude.spacing_dvd_mul (m := 1) (k := k) (by decide)
  rwa [Nat.one_mul] at h

/-- What is too large for any finite number rounds to an infinity. -/
theorem isRounding_infinite (negative : Bool) {d : Decimal} (h : 10 ^ (400 : ℤ) ≤ d.value) :
    (infinite negative).IsRounding negative d.value := by
  refine ⟨d.nearestUnits, d.isRounding_nearestUnits, .inr ⟨?_, rfl⟩⟩
  refine (Magnitude.isRounding_self spacing_bound_dvd).mono d.isRounding_nearestUnits ?_
  calc (Magnitude.bound : ℚ) ≤ ((10 ^ 400 * one : ℕ) : ℚ) := Nat.cast_le.2 bound_le_pow_mul_one
    _ = 10 ^ (400 : ℤ) * one := by
      rw [Nat.cast_mul, Nat.cast_pow, Nat.cast_ofNat, ← zpow_natCast, Nat.cast_ofNat]
    _ ≤ d.value * one := mul_le_mul_of_nonneg_right h Magnitude.one_cast_pos.le

/-- What is too small for any number but zero rounds to zero. -/
theorem isRounding_zero (negative : Bool) {d : Decimal} (h : d.value ≤ 10 ^ (-400 : ℤ)) :
    (signedZero negative).IsRounding negative d.value := by
  have hround := d.isRounding_nearestUnits
  have hclosest := hround.closest 0 (Nat.dvd_zero _)
  have hone := Magnitude.one_cast_pos
  have hsmall : 2 * (d.value * one) < 1 := by
    calc 2 * (d.value * one) ≤ 2 * (10 ^ (-400 : ℤ) * one) := by gcongr
      _ = ((2 * one : ℕ) : ℚ) * ((10 ^ 400 : ℕ) : ℚ)⁻¹ := by
        rw [zpow_neg, Nat.cast_mul, Nat.cast_pow, Nat.cast_ofNat, Nat.cast_ofNat, ← zpow_natCast,
          Nat.cast_ofNat]
        ring
      _ < 1 := by
        rw [mul_inv_lt_iff₀ (Nat.cast_pos.2 (Nat.pow_pos (by decide))), one_mul]
        exact Nat.cast_lt.2 two_mul_one_lt_pow
  have hzero : d.nearestUnits = 0 := by
    rw [Nat.cast_zero, zero_sub, abs_neg, abs_of_nonneg (mul_nonneg d.value_nonneg hone.le)] at hclosest
    have hle := (le_abs_self _).trans hclosest
    have hlt : (d.nearestUnits : ℚ) < 1 := by linarith
    exact Nat.lt_one_iff.1 (by exact_mod_cast hlt)
  exact ⟨d.nearestUnits, hround, .inl ⟨.zero, hzero.symm, rfl⟩⟩

/-! ## Far exponents -/

theorem le_value {digits : ℕ} (h : digits ≠ 0) {e f : ℤ} (hle : e ≤ f) :
    10 ^ e ≤ Decimal.value ⟨digits, f⟩ := by
  have hone : (1 : ℚ) ≤ digits := Nat.one_le_cast.2 (Nat.one_le_iff_ne_zero.2 h)
  exact (Decimal.ten_zpow_le hle).trans (le_mul_of_one_le_left (Decimal.ten_zpow_pos f).le hone)

theorem value_le {digits count : ℕ} (h : digits < 10 ^ count) {e f : ℤ} (hle : f + count ≤ e) :
    Decimal.value ⟨digits, f⟩ ≤ 10 ^ e := by
  refine le_trans ?_ (Decimal.ten_zpow_le hle)
  rw [Decimal.ten_zpow_add_natCast]
  exact mul_le_mul_of_nonneg_right (Nat.cast_le.2 h.le) (Decimal.ten_zpow_pos f).le

/-- **Bringing the exponent near does not change the rounding.** -/
theorem isRounding_settled (negative : Bool) {digits places count : ℕ} (hdigits : digits < 10 ^ count)
    (hplaces : places ≤ count) (exponent : ℤ) :
    (ofDecimal negative ⟨digits, settleExponent count exponent - places⟩).IsRounding negative
      (Decimal.value ⟨digits, exponent - places⟩) := by
  have hround := isRounding_ofDecimal negative ⟨digits, settleExponent count exponent - places⟩
  rcases eq_or_ne digits 0 with rfl | hne
  · have hzero : ∀ e, Decimal.value ⟨0, e⟩ = 0 := fun e => by rw [Decimal.value, Nat.cast_zero, zero_mul]
    rwa [hzero] at hround ⊢
  · have hsettle : settleExponent count exponent =
        max (-((count : ℤ) + 400)) (min exponent ((count : ℤ) + 400)) := rfl
    obtain hlow | hnear | hhigh : exponent < -((count : ℤ) + 400) ∨
        settleExponent count exponent = exponent ∨ (count : ℤ) + 400 < exponent := by omega
    · -- both values are so small that they round to zero
      have hsettled := isRounding_zero negative
        (value_le hdigits (by omega : settleExponent count exponent - places + count ≤ -400))
      rw [hround.unique hsettled]
      exact isRounding_zero negative (value_le hdigits (by omega))
    · rwa [hnear] at hround ⊢
    · -- both values are so large that they round to an infinity
      have hsettled := isRounding_infinite negative
        (le_value hne (by omega : (400 : ℤ) ≤ settleExponent count exponent - places))
      rw [hround.unique hsettled]
      exact isRounding_infinite negative (le_value hne (by omega))

end Number

/-! ## Numerals -/

/-- The characters of a sign, if one is written. -/
def signText : Option Bool → List Char
  | none => []
  | some true => ['-']
  | some false => ['+']

/-- An exponent as it is written. -/
structure WrittenExponent where
  capital : Bool
  /-- Whether it is negative, if a sign is written. -/
  sign : Option Bool
  digits : List Char
  isDigit : ∀ c ∈ digits, c.isDigit = true
  ne_nil : digits ≠ []

/-- A numeral as it is written. -/
structure Numeral where
  /-- Whether it is negative, if a sign is written. -/
  sign : Option Bool
  /-- The digits before the point. -/
  whole : List Char
  /-- The digits behind the point, if there is a point. -/
  fraction : Option (List Char)
  exponent : Option WrittenExponent
  isDigit_whole : ∀ c ∈ whole, c.isDigit = true
  isDigit_fraction : ∀ c ∈ fraction.getD [], c.isDigit = true
  exists_digit : whole ≠ [] ∨ fraction.getD [] ≠ []

namespace WrittenExponent

/-- The characters of an exponent. -/
def chars (e : WrittenExponent) : List Char :=
  (if e.capital then 'E' else 'e') :: (signText e.sign ++ e.digits)

/-- The integer that an exponent denotes. -/
def value (e : WrittenExponent) : ℤ := Number.signed (e.sign.getD false) (digitsValue e.digits)

end WrittenExponent

namespace Numeral

/-- The characters of a numeral, but for its sign. -/
def unsignedChars (n : Numeral) : List Char :=
  n.whole ++ (n.fraction.elim [] ('.' :: ·) ++ n.exponent.elim [] WrittenExponent.chars)

/-- The characters of a numeral. -/
def chars (n : Numeral) : List Char := signText n.sign ++ n.unsignedChars

def negative (n : Numeral) : Bool := n.sign.getD false

/-- All digits of a numeral, without its point. -/
def digits (n : Numeral) : List Char := n.whole ++ n.fraction.getD []

/-- What a numeral denotes, but for its sign. -/
def decimal (n : Numeral) : Decimal :=
  ⟨digitsValue n.digits, n.exponent.elim 0 WrittenExponent.value - (n.fraction.getD []).length⟩

end Numeral

/-! ## Reading -/

theorem spanDigits_append {ds rest : List Char} (hds : ∀ c ∈ ds, c.isDigit = true)
    (hrest : ∀ c ∈ rest.head?, c.isDigit = false) : spanDigits (ds ++ rest) = (ds, rest) :=
  Prod.ext (span_append hds hrest).1 (span_append hds hrest).2

/-- A sign is told by the first character, and what follows does not begin like one. -/
theorem spanSign_signText_append (sign : Option Bool) {cs : List Char}
    (h : ∀ c ∈ cs.head?, c ≠ '-' ∧ c ≠ '+') :
    spanSign (signText sign ++ cs) = (sign.getD false, cs) := by
  cases sign with
  | some negative => cases negative <;> rfl
  | none =>
    show spanSign cs = (false, cs)
    unfold spanSign
    split
    · exact absurd rfl (h '-' rfl).1
    · exact absurd rfl (h '+' rfl).2
    · rfl

theorem ne_of_isDigit {c d : Char} (hc : c.isDigit = true) (hd : d.isDigit = false) : c ≠ d := by
  rintro rfl
  exact absurd (hc.symm.trans hd) (by decide)

theorem isDigit_of_head? {ds rest : List Char} (hds : ∀ c ∈ ds, c.isDigit = true) (hne : ds ≠ [])
    {c : Char} (hc : c ∈ (ds ++ rest).head?) : c.isDigit = true := by
  cases ds with
  | nil => exact absurd rfl hne
  | cons d ds =>
    obtain rfl := Option.some_inj.1 hc
    exact hds d List.mem_cons_self

namespace Number

theorem readExponent?_chars (e : WrittenExponent) : readExponent? e.chars = some e.value := by
  have hsign : spanSign (signText e.sign ++ e.digits) = (e.sign.getD false, e.digits) := by
    refine spanSign_signText_append e.sign fun c hc => ?_
    have hdigit := e.isDigit c (List.mem_of_mem_head? hc)
    exact ⟨ne_of_isDigit hdigit rfl, ne_of_isDigit hdigit rfl⟩
  have hletter : (if e.capital then 'E' else 'e') = 'e' ∨ (if e.capital then 'E' else 'e') = 'E' := by
    cases e.capital
    · exact .inl rfl
    · exact .inr rfl
  have hdigits : e.digits ≠ [] ∧ e.digits.all Char.isDigit = true :=
    ⟨e.ne_nil, List.all_eq_true.2 e.isDigit⟩
  unfold readExponent? WrittenExponent.chars
  simp only
  rw [if_pos hletter, hsign, if_pos hdigits]
  rfl

theorem readExponent?_elim (exponent : Option WrittenExponent) :
    readExponent? (exponent.elim [] WrittenExponent.chars) = some (exponent.elim 0 WrittenExponent.value) := by
  cases exponent with
  | none => rfl
  | some e => exact readExponent?_chars e

theorem isDigit_of_head?_exponent (exponent : Option WrittenExponent) {c : Char}
    (h : c ∈ (exponent.elim [] WrittenExponent.chars).head?) : c.isDigit = false ∧ c ≠ '.' := by
  cases exponent with
  | none => cases h
  | some e =>
    obtain rfl := Option.some_inj.1 h
    cases e.capital <;> decide

theorem spanFraction_append (n : Numeral) :
    spanFraction (n.fraction.elim [] ('.' :: ·) ++ n.exponent.elim [] WrittenExponent.chars) =
      (n.fraction.getD [], n.exponent.elim [] WrittenExponent.chars) := by
  have hdigits := n.isDigit_fraction
  have hrest := fun c hc => isDigit_of_head?_exponent n.exponent (c := c) hc
  generalize n.exponent.elim [] WrittenExponent.chars = rest at hrest ⊢
  cases hfraction : n.fraction with
  | some ds =>
    rw [hfraction] at hdigits
    exact spanDigits_append hdigits fun c hc => (hrest c hc).1
  | none =>
    show spanFraction rest = ([], rest)
    unfold spanFraction
    split
    · exact absurd rfl (hrest '.' rfl).2
    · rfl

theorem readDecimal?_unsignedChars (n : Numeral) :
    readDecimal? n.unsignedChars = some ⟨digitsValue n.digits,
      settleExponent n.digits.length (n.exponent.elim 0 WrittenExponent.value) -
        (n.fraction.getD []).length⟩ := by
  have hwhole : spanDigits n.unsignedChars =
      (n.whole, n.fraction.elim [] ('.' :: ·) ++ n.exponent.elim [] WrittenExponent.chars) := by
    refine spanDigits_append n.isDigit_whole fun c hc => ?_
    cases hfraction : n.fraction with
    | some ds =>
      rw [hfraction] at hc
      obtain rfl := Option.some_inj.1 hc
      rfl
    | none =>
      rw [hfraction] at hc
      exact (isDigit_of_head?_exponent n.exponent hc).1
  have hsome : ¬ (n.whole = [] ∧ n.fraction.getD [] = []) := by
    rintro ⟨hwhole, hfraction⟩
    exact n.exists_digit.elim (· hwhole) (· hfraction)
  unfold readDecimal?
  simp only [hwhole, spanFraction_append]
  rw [if_neg hsome, readExponent?_elim]
  rfl

theorem isDigit_or_point_of_head? (n : Numeral) {c : Char} (h : c ∈ n.unsignedChars.head?) :
    c.isDigit = true ∨ c = '.' := by
  unfold Numeral.unsignedChars at h
  rcases eq_or_ne n.whole [] with hwhole | hwhole
  · have hfraction := n.exists_digit.resolve_left (absurd hwhole)
    rw [hwhole, List.nil_append] at h
    cases hpoint : n.fraction with
    | none =>
      rw [hpoint] at hfraction
      exact absurd rfl hfraction
    | some ds =>
      rw [hpoint] at h
      exact .inr (Option.some_inj.1 h).symm
  · exact .inl (isDigit_of_head? n.isDigit_whole hwhole h)

theorem toLower_eq_self {c : Char} (h : c.isDigit = true ∨ c = '.') : c.toLower = c := by
  rcases h with h | rfl
  · have hcode : c.toNat ≤ '9'.toNat := (Char.isDigit_iff_toNat.1 h).2
    exact dif_neg fun hupper => absurd (UInt32.le_iff_toNat_le.1 hupper.1)
      (Nat.not_le_of_lt (Nat.lt_of_le_of_lt hcode (by decide)))
  · rfl

/-- No numeral is taken for a word: its first character begins none of them. -/
theorem readWord?_unsignedChars (negative : Bool) (n : Numeral) :
    readWord? negative n.unsignedChars = none := by
  have hhead : ∀ c ∈ (n.unsignedChars.map Char.toLower).head?, c ≠ 'i' ∧ c ≠ 'n' := by
    intro c hc
    rw [List.head?_map] at hc
    obtain ⟨d, hd, rfl⟩ := Option.map_eq_some_iff.1 hc
    have hfirst := isDigit_or_point_of_head? n hd
    rw [toLower_eq_self hfirst]
    rcases hfirst with h | rfl
    · exact ⟨ne_of_isDigit h rfl, ne_of_isDigit h rfl⟩
    · decide
  unfold readWord?
  simp only
  rw [if_neg, if_neg]
  · intro h
    exact (hhead 'n' (by rw [h]; rfl)).2 rfl
  · rintro (h | h) <;> exact (hhead 'i' (by rw [h]; rfl)).1 rfl

/-- **Every numeral is read, and rounded correctly.** -/
theorem exists_ofChars? (n : Numeral) :
    ∃ x, ofChars? n.chars = some x ∧ x.IsRounding n.negative n.decimal.value := by
  have hsign : spanSign n.chars = (n.negative, n.unsignedChars) := by
    refine spanSign_signText_append n.sign fun c hc => ?_
    rcases isDigit_or_point_of_head? n hc with h | rfl
    · exact ⟨ne_of_isDigit h rfl, ne_of_isDigit h rfl⟩
    · decide
  have hdigits : ∀ c ∈ n.digits, c.isDigit = true := fun c hc =>
    (List.mem_append.1 hc).elim (n.isDigit_whole c) (n.isDigit_fraction c)
  have hplaces : (n.fraction.getD []).length ≤ n.digits.length := by
    unfold Numeral.digits
    rw [List.length_append]
    exact Nat.le_add_left _ _
  refine ⟨_, ?_, isRounding_settled n.negative (digitsValue_lt hdigits) hplaces _⟩
  unfold ofChars?
  simp only [hsign, readWord?_unsignedChars, readDecimal?_unsignedChars]
  rfl

end Number
end ExprLang
