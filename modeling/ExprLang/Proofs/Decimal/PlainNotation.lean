import ExprLang.Proofs.Decimal.Numeral
import ExprLang.Proofs.Value.Rendering

/-!
# Plain notation is read back

In plain notation a number is a numeral without an exponent (`Decimal.exists_numeral_positional`).  That
numeral has the value of the decimal that was written, however many zeros stand before or behind its digits,
and the decimal rounds to the number.  Reading rounds the value of a numeral correctly and a value has one
rounding, so reading gives the number back, with its sign if it is zero (`Number.ofChars?_plainChars`).

Reading and writing meet in `Number.IsRounding` alone.  Neither says anything of how the other works.

In the text of a value, numbers and integers are words: the last section gives their characters.
-/

namespace ExprLang

namespace Decimal

theorem isDigit_of_mem_append_zeros {ds : List Char} (hds : ∀ c ∈ ds, c.isDigit = true) (k : ℕ) :
    ∀ c ∈ ds ++ List.replicate k '0', c.isDigit = true := by
  intro c hc
  rcases List.mem_append.1 hc with hc | hc
  · exact hds c hc
  · rw [List.eq_of_mem_replicate hc]
    decide

/-- **A point keeps the digits and their value**, and as many of them stand behind it as there are places:
it may stand among the digits, or before them with zeros to fill the gap. -/
theorem exists_withPoint_eq {ds : List Char} (hds : ∀ c ∈ ds, c.isDigit = true) (places : ℕ) :
    ∃ whole fraction : List Char, withPoint ds places = whole ++ '.' :: fraction ∧ whole ≠ [] ∧
      (∀ c ∈ whole ++ fraction, c.isDigit = true) ∧ digitsValue (whole ++ fraction) = digitsValue ds ∧
      fraction.length = places := by
  unfold withPoint
  split
  · rename_i hlt
    refine ⟨ds.take (ds.length - places), ds.drop (ds.length - places), rfl, ?_, ?_, ?_, ?_⟩
    · exact List.length_pos_iff.1 (by rw [List.length_take]; omega)
    · rw [List.take_append_drop]
      exact hds
    · rw [List.take_append_drop]
    · rw [List.length_drop, Nat.sub_sub_self hlt.le]
  · rename_i hle
    refine ⟨['0'], List.replicate (places - ds.length) '0' ++ ds, rfl, List.cons_ne_nil _ _, ?_, ?_, ?_⟩
    · intro c hc
      have hzero : ∀ d ∈ ['0'], d.isDigit = true := List.all_eq_true.1 rfl
      rw [← List.append_assoc] at hc
      rcases List.mem_append.1 hc with hc | hc
      · exact isDigit_of_mem_append_zeros hzero _ c hc
      · exact hds c hc
    · show digitsValue (List.replicate 1 '0' ++ _) = _
      rw [digitsValue_zeros_append, digitsValue_zeros_append]
    · rw [List.length_append, List.length_replicate]
      omega

/-- **What a positional text consists of**: digits, and behind a point as many more as there are places. -/
theorem exists_positional_eq (d : Decimal) : ∃ (whole : List Char) (fraction : Option (List Char)),
    d.positional = whole ++ fraction.elim [] ('.' :: ·) ∧ whole ≠ [] ∧
      (∀ c ∈ whole ++ fraction.getD [], c.isDigit = true) ∧
      value ⟨digitsValue (whole ++ fraction.getD []), -((fraction.getD []).length : ℤ)⟩ = d.value := by
  have hdigits : ∀ c ∈ digitsOf d.digits, c.isDigit = true := fun c => isDigit_of_mem_digitsOf
  unfold positional
  split
  · rename_i hexponent
    obtain ⟨k, hk⟩ := Int.eq_ofNat_of_zero_le hexponent
    have hne : digitsOf d.digits ≠ [] := List.length_pos_iff.1 Nat.length_toDigits_pos
    refine ⟨digitsOf d.digits ++ List.replicate d.exponent.toNat '0', none, (List.append_nil _).symm,
      List.append_ne_nil_of_left_ne_nil hne _, ?_, ?_⟩
    · rw [Option.getD_none, List.append_nil]
      exact isDigit_of_mem_append_zeros hdigits _
    · rw [Option.getD_none, List.append_nil, digitsValue_append_zeros, digitsValue_digitsOf, value, value,
        hk, Int.toNat_natCast, List.length_nil, Nat.cast_mul, zpow_natCast, Nat.cast_pow, Nat.cast_ofNat]
      exact mul_one _
  · obtain ⟨whole, fraction, htext, hne, hall, hvalue, hlength⟩ :=
      exists_withPoint_eq hdigits (-d.exponent).toNat
    refine ⟨whole, some fraction, htext, hne, hall, ?_⟩
    have hplaces : -(((-d.exponent).toNat : ℕ) : ℤ) = d.exponent := by omega
    rw [Option.getD_some, hvalue, digitsValue_digitsOf, hlength, hplaces]

/-- A sign that is written only if it is a minus. -/
theorem signText_minus (negative : Bool) :
    signText (if negative then some true else none) = Number.signChars negative := by
  cases negative <;> rfl

/-- **Plain notation is a numeral without an exponent**, and has the value of what is written. -/
theorem exists_numeral_positional (negative : Bool) (d : Decimal) : ∃ n : Numeral,
    n.chars = Number.signChars negative ++ d.positional ∧ n.negative = negative ∧ n.exponent = none ∧
      n.decimal.value = d.value := by
  obtain ⟨whole, fraction, htext, hne, hdigits, hvalue⟩ := exists_positional_eq d
  refine ⟨⟨if negative then some true else none, whole, fraction, none,
    fun c hc => hdigits c (List.mem_append_left _ hc), fun c hc => hdigits c (List.mem_append_right _ hc),
    .inl hne⟩, ?_, ?_, rfl, ?_⟩
  · show signText _ ++ (whole ++ (fraction.elim [] ('.' :: ·) ++ [])) = _
    rw [signText_minus, List.append_nil, htext]
  · cases negative <;> rfl
  · show value ⟨digitsValue (whole ++ fraction.getD []), 0 - ((fraction.getD []).length : ℤ)⟩ = _
    rw [zero_sub, hvalue]

end Decimal

namespace Number

/-- The decimal that plain notation writes. -/
def plainDecimal (m : Magnitude) : Decimal := if m.units = 0 then ⟨0, 0⟩ else m.shortest .up

theorem plainChars_finite (negative : Bool) (m : Magnitude) :
    (finite negative m).plainChars = signChars negative ++ (plainDecimal m).positional := by
  rw [plainChars, plainDecimal]
  split <;> rfl

/-- **The decimal that is written rounds to the number**, -/
theorem isRounding_plainDecimal (negative : Bool) (m : Magnitude) :
    (finite negative m).IsRounding negative (plainDecimal m).value := by
  unfold plainDecimal
  split
  · rename_i hzero
    obtain rfl : m = .zero := Magnitude.ext hzero
    refine isRounding_zero negative ?_
    rw [Decimal.value, Nat.cast_zero, zero_mul]
    exact (Decimal.ten_zpow_pos _).le
  · rename_i hne
    exact isRounding_of_readsBack negative (Magnitude.readsBack_shortest hne .up)

theorem readsBack_of_isRounding {negative : Bool} {m : Magnitude} {d : Decimal}
    (h : (finite negative m).IsRounding negative d.value) : m.readsBack d = true := by
  obtain ⟨n, hn, ⟨k, rfl, hk⟩ | ⟨-, hk⟩⟩ := h
  · cases hk
    exact Magnitude.readsBack_iff.2 hn
  · cases hk

/-- and none that does has fewer digits. -/
theorem length_digitsOf_plainDecimal_le {negative : Bool} {m : Magnitude} {d : Decimal}
    (h : (finite negative m).IsRounding negative d.value) :
    (Decimal.digitsOf (plainDecimal m).digits).length ≤ (Decimal.digitsOf d.digits).length := by
  unfold plainDecimal
  split
  · exact Nat.succ_le_of_lt Nat.length_toDigits_pos
  · rename_i hne
    exact Magnitude.length_digitsOf_shortest_le hne .up (readsBack_of_isRounding h)

/-- **Reading plain notation rounds what is written.** -/
theorem ofChars?_positional (negative : Bool) (d : Decimal) :
    ofChars? (signChars negative ++ d.positional) = some (ofDecimal negative d) := by
  obtain ⟨n, htext, hnegative, -, hvalue⟩ := d.exists_numeral_positional negative
  obtain ⟨x, hread, hround⟩ := exists_ofChars? n
  rw [hnegative, hvalue] at hround
  rw [← htext, hread, hround.unique (isRounding_ofDecimal negative d)]

/-- **Every number is read back from its text.** -/
theorem ofChars?_plainChars (x : Number) : ofChars? x.plainChars = some x := by
  cases x with
  | nan => rfl
  | infinite negative => cases negative <;> rfl
  | finite negative m =>
    have hround := isRounding_ofDecimal negative (plainDecimal m)
    rw [plainChars_finite, ofChars?_positional, hround.unique (isRounding_plainDecimal negative m)]

theorem integerChars_eq (n : ℤ) :
    integerChars n = signChars (n < 0) ++ (Decimal.mk n.natAbs 0).positional :=
  congrArg (signChars (n < 0) ++ ·) (List.append_nil _).symm

/-- An integer is read as the number nearest to it. -/
theorem ofChars?_integerChars (n : ℤ) : ofChars? (integerChars n) = some (ofInt n) := by
  have hratio : (Decimal.mk n.natAbs 0).ratio = (n.natAbs * Magnitude.one, 1) :=
    congrArg (fun k => (k * Magnitude.one, 1)) (Nat.mul_one n.natAbs)
  rw [integerChars_eq, ofChars?_positional, ofDecimal, hratio, ofInt]

@[simp] theorem ofText?_plainText (x : Number) : ofText? x.plainText = some x := by
  rw [ofText?, plainText, String.toList_ofList, ofChars?_plainChars]

end Number

/-! ## Words -/

theorem isWordChar_of_isDigit {c : Char} (h : c.isDigit = true) : isWordChar c = true := by
  simp [isWordChar, Char.isAlphanum, h]

theorem Number.isWordChar_of_mem_plainChars {x : Number} {c : Char} (h : c ∈ x.plainChars) :
    isWordChar c = true := by
  have hnan : ∀ d ∈ ['N', 'a', 'N'], isWordChar d = true := List.all_eq_true.1 rfl
  have hinf : ∀ d ∈ ['i', 'n', 'f'], isWordChar d = true := List.all_eq_true.1 rfl
  rcases mem_plainChars h with h | rfl | rfl | h | h
  · exact isWordChar_of_isDigit h
  · rfl
  · rfl
  · exact hnan c h
  · exact hinf c h

theorem isWordChar_of_mem_integerChars {n : ℤ} {c : Char} (h : c ∈ integerChars n) :
    isWordChar c = true := by
  rcases List.mem_append.1 h with h | h
  · generalize decide (n < 0) = negative at h
    cases negative with
    | true =>
      rw [List.mem_singleton.1 h]
      rfl
    | false => exact absurd h List.not_mem_nil
  · exact isWordChar_of_isDigit (Decimal.isDigit_of_mem_digitsOf h)

theorem Number.plainChars_ne_nil (x : Number) : x.plainChars ≠ [] := by
  intro h
  have hread := ofChars?_plainChars x
  rw [h] at hread
  cases hread

theorem integerChars_ne_nil (n : ℤ) : integerChars n ≠ [] := by
  intro h
  have hread := Number.ofChars?_integerChars n
  rw [h] at hread
  cases hread

end ExprLang
