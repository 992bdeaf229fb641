import ExprLang.Value.Rendering

/-!
# Telling values by their texts

Faults show values as texts, so it matters which values share a text.  Null shares its text with
nothing else (`kind_eq_null_of_text`): a string stands between quotes, arrays, ranges and maps stand
between brackets, and a number is written with digits, a sign and a point, or with the letters of
`NaN` and `inf` (`mem_plainChars`).
-/

namespace ExprLang

/-! ## Numbers -/

namespace Decimal

theorem isDigit_of_mem_digitsOf {n : Nat} {c : Char} (h : c ∈ digitsOf n) : c.isDigit = true :=
  Nat.isDigit_of_mem_toDigits (by decide) (by decide) h

theorem mem_withPoint {digits : List Char} {places : Nat} {c : Char}
    (h : c ∈ withPoint digits places) : c ∈ digits ∨ c = '0' ∨ c = '.' := by
  unfold withPoint at h
  split at h
  · rcases List.mem_append.1 h with h | h
    · exact .inl (List.mem_of_mem_take h)
    · rcases List.mem_cons.1 h with h | h
      · exact .inr (.inr h)
      · exact .inl (List.mem_of_mem_drop h)
  · rcases List.mem_cons.1 h with h | h
    · exact .inr (.inl h)
    · rcases List.mem_cons.1 h with h | h
      · exact .inr (.inr h)
      · rcases List.mem_append.1 h with h | h
        · exact .inr (.inl (List.eq_of_mem_replicate h))
        · exact .inl h

theorem mem_positional {d : Decimal} {c : Char} (h : c ∈ d.positional) :
    c.isDigit = true ∨ c = '.' := by
  have hdigits : c ∈ digitsOf d.digits ∨ c = '0' ∨ c = '.' := by
    unfold positional at h
    split at h
    · rcases List.mem_append.1 h with h | h
      · exact .inl h
      · exact .inr (.inl (List.eq_of_mem_replicate h))
    · exact mem_withPoint h
  rcases hdigits with h | rfl | h
  · exact .inl (isDigit_of_mem_digitsOf h)
  · exact .inl (by decide)
  · exact .inr h

end Decimal

/-- **The characters of numbers** in plain notation. -/
theorem Number.mem_plainChars {x : Number} {c : Char} (h : c ∈ x.plainChars) :
    c.isDigit = true ∨ c = '-' ∨ c = '.' ∨ c ∈ ['N', 'a', 'N'] ∨ c ∈ ['i', 'n', 'f'] := by
  have hsign : ∀ negative, c ∈ signChars negative → c = '-' := by
    intro negative hc
    cases negative with
    | true => exact List.mem_singleton.1 hc
    | false => exact absurd hc List.not_mem_nil
  cases x with
  | nan => exact .inr (.inr (.inr (.inl h)))
  | infinite negative =>
    rcases List.mem_append.1 h with h | h
    · exact .inr (.inl (hsign negative h))
    · exact .inr (.inr (.inr (.inr h)))
  | finite negative m =>
    rcases List.mem_append.1 h with h | h
    · exact .inr (.inl (hsign negative h))
    · split at h
      · rw [List.mem_singleton.1 h]
        exact .inl (by decide)
      · rcases Decimal.mem_positional h with h | h
        · exact .inl h
        · exact .inr (.inr (.inl h))

/-! ## Null -/

theorem Layout.exists_bracketed_eq_cons (layout : Layout) (opening closing : Char)
    (items : List (List Char)) : ∃ rest, layout.bracketed opening closing items = opening :: rest := by
  cases items with
  | nil => exact ⟨_, rfl⟩
  | cons first rest => exact ⟨_, rfl⟩

namespace Value

/-- **Only null is shown as null is.** -/
theorem kind_eq_null_of_text {v : Value} (h : v.text = null.text) : v.kind = .null := by
  have hchars : v.chars .line = ['n', 'u', 'l', 'l'] := String.ofList_injective h
  obtain ⟨payload, p⟩ := v
  cases payload with
  | boolean b => cases b <;> cases hchars
  | string s => cases hchars
  | number x =>
    have hplain : x.plainChars = ['n', 'u', 'l', 'l'] := hchars
    have hu : 'u' ∈ x.plainChars := by
      rw [hplain]
      decide
    exact absurd (Number.mem_plainChars hu) (by decide)
  | array items =>
    obtain ⟨rest, hrest⟩ := Layout.exists_bracketed_eq_cons .line '[' ']' (itemChars items .line)
    cases hrest.symm.trans hchars
  | map entries =>
    obtain ⟨rest, hrest⟩ :=
      Layout.exists_bracketed_eq_cons .line '\x7b' '\x7d' (entryChars entries .line)
    cases hrest.symm.trans hchars
  | range integers =>
    obtain ⟨rest, hrest⟩ := Layout.exists_bracketed_eq_cons .line '[' ']' (integers.map integerChars)
    cases hrest.symm.trans hchars
  | null => rfl
  | undefined => cases hchars

end Value
end ExprLang
