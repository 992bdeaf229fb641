import ExprLang.Value.Range

/-!
# Runs of integers

What `Run.inclusive` builds and what `Run.inclusiveLength` says of it, for any two bounds.

* A run is known by where it starts, where it ends, how many integers it has and by how much each differs from
  the one before (`IsRun`); `inclusive` has all four (`isRun_inclusive`), and between the bounds there is
  nothing else (`mem_inclusive_iff`).
* The run in the other direction is the run in reverse (`reverse_inclusive`).
* A length is asked for in 64-bit words, and neither the distance of two words is a word nor, always, what
  comes of adding one to it.  `wordLength` computes with words only: their difference modulo `2 ^ 64` is the
  distance, as an unsigned word (`toNat_wordDistance`), and one is added unless that is the greatest one.  It
  gives the length with its cap (`toNat_wordLength`).
-/

namespace ExprLang
namespace Run
variable {first last : Int}

/-! ## What a run is -/

/-- **A run has one element more than its bounds are apart.** -/
theorem length_inclusive (first last : Int) :
    (inclusive first last).length = (last - first).natAbs + 1 := by
  rw [inclusive]
  split
  · rw [List.length_map, List.length_range]
    omega
  · rw [List.length_map, List.length_range]
    omega

theorem getElem_inclusive {i : Nat} (h : i < (inclusive first last).length) :
    (inclusive first last)[i] = if first ≤ last then first + i else first - i := by
  unfold inclusive
  split <;> simp

/-- **A run in the other direction is the run in reverse.** -/
theorem reverse_inclusive (first last : Int) :
    (inclusive first last).reverse = inclusive last first := by
  apply List.ext_getElem
  · rw [List.length_reverse, length_inclusive, length_inclusive]
    omega
  · intro i h h'
    rw [length_inclusive] at h'
    simp only [List.getElem_reverse, getElem_inclusive, length_inclusive]
    omega

/-- The integers from one bound to the other, one after the other. -/
structure IsRun (first last : Int) (ns : List Int) : Prop where
  head : ns.head? = some first
  getLast : ns.getLast? = some last
  length : ns.length = (last - first).natAbs + 1
  step : ∀ i (h : i + 1 < ns.length), ns[i + 1] = ns[i] + if first ≤ last then 1 else -1

/-- **`inclusive` is the run between its bounds.** -/
theorem isRun_inclusive (first last : Int) : IsRun first last (inclusive first last) := by
  have hlength := length_inclusive first last
  have hne : inclusive first last ≠ [] := by
    rw [← List.length_pos_iff]
    omega
  refine ⟨?_, ?_, hlength, fun i h => ?_⟩
  · rw [List.head?_eq_some_head hne, List.head_eq_getElem, getElem_inclusive]
    exact congrArg some (by omega)
  · rw [List.getLast?_eq_some_getLast hne, List.getLast_eq_getElem, getElem_inclusive]
    exact congrArg some (by omega)
  · rw [getElem_inclusive, getElem_inclusive]
    omega

/-- Nothing lies in a run that does not lie between its bounds. -/
theorem mem_inclusive_iff {n : Int} :
    n ∈ inclusive first last ↔ min first last ≤ n ∧ n ≤ max first last := by
  rw [List.mem_iff_getElem]
  constructor
  · rintro ⟨i, h, rfl⟩
    rw [getElem_inclusive]
    rw [length_inclusive] at h
    omega
  · intro hn
    have h : (n - first).natAbs < (inclusive first last).length := by
      rw [length_inclusive]
      omega
    refine ⟨_, h, ?_⟩
    rw [getElem_inclusive]
    omega

/-! ## Lengths in 64-bit words -/

/-- The distance of two signed words, as an unsigned word: the difference of the greater and the lesser one
modulo `2 ^ 64`. -/
def wordDistance (first last : Int64) : UInt64 :=
  if first ≤ last then last.toUInt64 - first.toUInt64 else first.toUInt64 - last.toUInt64

/-- The greatest unsigned word. -/
def greatestUnsigned : UInt64 := 0xffffffffffffffff

/-- The number of integers between two words, in words: one more than they are apart, unless that is no
word. -/
def wordLength (first last : Int64) : UInt64 :=
  let distance := wordDistance first last
  if distance = greatestUnsigned then greatestUnsigned else distance + 1

theorem toInt_eq_toNat_toUInt64 (n : Int64) :
    n.toInt = if n.toUInt64.toNat ≤ 0x7fffffffffffffff then (n.toUInt64.toNat : Int)
      else (n.toUInt64.toNat : Int) - 0x10000000000000000 := by
  have h := BitVec.toInt_eq_toNat_cond n.toBitVec
  have hbits : n.toBitVec.toNat = n.toUInt64.toNat := rfl
  rw [hbits] at h
  have hint : n.toInt = n.toBitVec.toInt := rfl
  omega

/-- **The distance does not wrap around.** -/
theorem toNat_wordDistance (first last : Int64) :
    (wordDistance first last).toNat = (last.toInt - first.toInt).natAbs := by
  have hfirst := toInt_eq_toNat_toUInt64 first
  have hlast := toInt_eq_toNat_toUInt64 last
  have hfirst' := first.toUInt64.toNat_lt
  have hlast' := last.toUInt64.toNat_lt
  unfold wordDistance
  by_cases h : first ≤ last
  · rw [if_pos h, UInt64.toNat_sub]
    have hle := Int64.le_iff_toInt_le.1 h
    omega
  · rw [if_neg h, UInt64.toNat_sub]
    have hlt := mt Int64.le_iff_toInt_le.2 h
    omega

/-- **The length in words is the capped length.** -/
theorem toNat_wordLength (first last : Int64) :
    (wordLength first last).toNat = inclusiveLength first.toInt last.toInt := by
  have hdistance := toNat_wordDistance first last
  have hcap : lengthCap = 0xffffffffffffffff := rfl
  have hgreatest : greatestUnsigned.toNat = 0xffffffffffffffff := rfl
  have hlt := (wordDistance first last).toNat_lt
  rw [inclusiveLength, ← hdistance, hcap]
  unfold wordLength
  simp only
  split
  · rename_i h
    rw [h, hgreatest]
    omega
  · rename_i h
    have hne : (wordDistance first last).toNat ≠ 0xffffffffffffffff := by
      rw [← hgreatest]
      exact mt UInt64.toNat_inj.1 h
    rw [UInt64.toNat_add]
    have hone : (1 : UInt64).toNat = 1 := rfl
    omega

end Run
end ExprLang
