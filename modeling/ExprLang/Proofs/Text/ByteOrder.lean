/-!
# Code points and bytes

Texts are ordered by their code points.  Where a text is a sequence of bytes in UTF-8, one would
rather compare the bytes, and the two orders are the same (`compare_eq_compare_bytes`).

The encoding was made so.  Of two characters, the one with the smaller code point has the smaller
byte at the first place where their bytes differ, and there is such a place within the bytes of
both: a lead byte tells how many bytes follow, longer sequences have greater lead bytes, and
the code points of sequences of one length are digits in base 64.  Hence the first two characters
that differ decide about the bytes of two texts whatever comes after them
(`encode_append_lt_encode_append`).
-/

namespace ExprLang
namespace Text
open String (utf8EncodeChar)

/-- The bytes of a text in UTF-8. -/
def bytes (s : String) : List UInt8 := s.toByteArray.data.toList

theorem bytes_eq_flatMap (s : String) : bytes s = s.toList.flatMap utf8EncodeChar := by
  rw [bytes, ← String.ofList_toList (s := s), String.toByteArray_ofList, List.utf8Encode,
    List.data_toByteArray, String.ofList_toList]

/-! ## Lists of bytes -/

theorem cons_ofNat_lt_cons_iff {m n : Nat} (hm : m < 256) (hn : n < 256) {as bs : List UInt8} :
    UInt8.ofNat m :: as < UInt8.ofNat n :: bs ↔ m < n ∨ m = n ∧ as < bs := by
  rw [List.cons_lt_cons_iff, UInt8.lt_iff_toNat_lt, ← UInt8.toNat_inj, UInt8.toNat_ofNat',
    UInt8.toNat_ofNat', Nat.mod_eq_of_lt hm, Nat.mod_eq_of_lt hn]

theorem compare_bytes_eq_lt_iff (as bs : List UInt8) : compare as bs = .lt ↔ as < bs := by
  rw [List.compare_eq_compareLex]
  induction as generalizing bs with
  | nil => cases bs <;> simp [List.compareLex]
  | cons a as ih =>
    cases bs with
    | nil => simp [List.compareLex]
    | cons b bs =>
      rw [List.compareLex_cons_cons, Ordering.then_eq_lt, ih, Std.compare_eq_lt,
        Std.LawfulEqOrd.compare_eq_iff_eq, List.cons_lt_cons_iff]

/-! ## Encoded characters -/

/-- **A smaller code point has the smaller bytes**, whatever follows. -/
theorem encode_append_lt_encode_append {c d : Char} (h : c < d) (as bs : List UInt8) :
    utf8EncodeChar c ++ as < utf8EncodeChar d ++ bs := by
  have hlt : c.val.toNat < d.val.toNat := UInt32.lt_iff_toNat_lt.1 h
  have hd : d.val.toNat < 0x110000 := by
    rcases d.valid with h | ⟨_, h⟩ <;> omega
  rw [utf8EncodeChar.eq_1, utf8EncodeChar.eq_1]
  generalize c.val.toNat = m at *
  generalize d.val.toNat = n at *
  -- the digits in base 64, and that leading digits do not decrease
  have hdigits : ∀ k : Nat, k / 4096 = k / 64 / 64 ∧ k / 262144 = k / 4096 / 64 :=
    fun k => ⟨by omega, by omega⟩
  have hm := hdigits m
  have hn := hdigits n
  have hlead : m / 64 < n / 64 ∨ m / 64 = n / 64 := by omega
  have hlead' : m / 4096 < n / 4096 ∨ m / 4096 = n / 4096 := by omega
  -- one case for each pair of lengths
  repeat' split
  all_goals
    repeat rw [List.cons_append]
    simp (disch := omega) only [cons_ofNat_lt_cons_iff, Nat.mod_eq_of_lt]
    omega

theorem flatMap_encode_lt {cs ds : List Char} (h : cs < ds) :
    cs.flatMap utf8EncodeChar < ds.flatMap utf8EncodeChar := by
  induction cs generalizing ds with
  | nil =>
    cases ds with
    | nil => exact absurd h (List.not_lt_nil [])
    | cons d ds =>
      rw [List.flatMap_nil, List.flatMap_cons]
      cases hbytes : utf8EncodeChar d with
      | nil => exact absurd hbytes String.utf8EncodeChar_ne_nil
      | cons b bs => exact List.nil_lt_cons b _
  | cons c cs ih =>
    cases ds with
    | nil => exact absurd h (List.not_lt_nil _)
    | cons d ds =>
      rw [List.flatMap_cons, List.flatMap_cons]
      rcases List.cons_lt_cons_iff.1 h with hlt | ⟨rfl, hlt⟩
      · exact encode_append_lt_encode_append hlt _ _
      · exact List.append_left_lt (ih hlt)

/-- **Code points and bytes order texts in the same way.** -/
theorem compare_eq_compare_bytes (s t : String) : compare s t = compare (bytes s) (bytes t) := by
  have hlt : ∀ {s t : String}, s < t → compare (bytes s) (bytes t) = .lt := by
    intro s t h
    rw [compare_bytes_eq_lt_iff, bytes_eq_flatMap, bytes_eq_flatMap]
    exact flatMap_encode_lt (String.lt_iff.1 h)
  cases h : compare s t with
  | lt => exact (hlt (compareOfLessAndEq_eq_lt.1 h)).symm
  | eq =>
    rw [Std.LawfulEqOrd.compare_eq_iff_eq.1 h]
    exact Std.ReflCmp.compare_self.symm
  | gt =>
    have hgt : compare t s = .lt := Std.OrientedCmp.gt_iff_lt.1 h
    rw [Std.OrientedOrd.eq_swap (a := bytes s), hlt (compareOfLessAndEq_eq_lt.1 hgt)]
    rfl

end Text
end ExprLang
