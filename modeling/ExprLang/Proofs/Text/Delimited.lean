import ExprLang.Value.Rendering
import Mathlib.Data.List.Forall2

/-!
# Texts that end by themselves

Texts are put one behind the other, and what follows one of them must not be taken for a part of it.  There
are three ways in which a text tells where it ends.

* A word ends where a character stands that no word contains (`span_append`).  In a list of elements the
  next character is a comma or a blank (`Delimited`).
* A quoted text ends at the first quote that no backslash stands before.  `Quoted.unescape?` reads up to it,
  and reads back what was written (`Quoted.unescape?_escape`).
* A list between brackets ends where a blank follows an element instead of a comma, provided that each element
  ends by itself (`Layout.forall₂_of_bracketed_append_eq`).
-/

namespace ExprLang

/-! ## Words -/

/-- A run of characters with a property ends before the first that lacks it. -/
theorem span_append {p : Char → Bool} {cs rest : List Char} (hcs : ∀ c ∈ cs, p c = true)
    (hrest : ∀ c ∈ rest.head?, p c = false) :
    (cs ++ rest).takeWhile p = cs ∧ (cs ++ rest).dropWhile p = rest := by
  rw [List.takeWhile_append_of_pos hcs, List.dropWhile_append_of_pos hcs]
  cases rest with
  | nil => exact ⟨List.append_nil cs, rfl⟩
  | cons c rest =>
    have hc : ¬ p c = true := by
      rw [hrest c rfl]
      decide
    rw [List.takeWhile_cons_of_neg hc, List.dropWhile_cons_of_neg hc]
    exact ⟨List.append_nil cs, rfl⟩

/-- Whether a character can stand in a number or in a word such as `null`. -/
def isWordChar (c : Char) : Bool := c.isAlphanum || c == '-' || c == '.'

theorem ne_of_isWordChar {c d : Char} (hc : isWordChar c = true) (hd : isWordChar d = false) : c ≠ d := by
  rintro rfl
  exact absurd (hc.symm.trans hd) (by decide)

/-- Nothing follows, or what follows an element of a list on one line: a comma or a blank. -/
def Delimited (rest : List Char) : Prop := ∀ c ∈ rest.head?, c = ',' ∨ c = ' '

theorem delimited_nil : Delimited [] := fun _ hc => nomatch hc

theorem delimited_cons {c : Char} (hc : c = ',' ∨ c = ' ') (rest : List Char) : Delimited (c :: rest) :=
  fun _ hd => Option.some_inj.1 hd ▸ hc

/-- **Words are told apart**, whatever is behind the delimiter. -/
theorem word_append_inj {cs ds u v : List Char} (hcs : ∀ c ∈ cs, isWordChar c = true)
    (hds : ∀ c ∈ ds, isWordChar c = true) (hu : Delimited u) (hv : Delimited v)
    (h : cs ++ u = ds ++ v) : cs = ds ∧ u = v := by
  have hdelimiter : ∀ {rest}, Delimited rest → ∀ c ∈ rest.head?, isWordChar c = false := by
    intro rest hrest c hc
    rcases hrest c hc with rfl | rfl <;> decide
  obtain ⟨htake, hdrop⟩ := span_append hcs (hdelimiter hu)
  obtain ⟨htake', hdrop'⟩ := span_append hds (hdelimiter hv)
  rw [h] at htake hdrop
  exact ⟨htake.symm.trans htake', hdrop.symm.trans hdrop'⟩

/-! ## Quoted texts -/

namespace Quoted

/-- What a character after a backslash stands for. -/
def unescapeChar : Char → Char
  | 'n' => '\n'
  | 't' => '\t'
  | c => c

/-- What stands before the closing quote, as it was before it was quoted, and what follows that quote. -/
def unescape? : List Char → Option (List Char × List Char)
  | [] => none
  | '"' :: rest => some ([], rest)
  | '\\' :: c :: rest => (unescape? rest).map (Prod.map (unescapeChar c :: ·) id)
  | c :: rest => (unescape? rest).map (Prod.map (c :: ·) id)

theorem unescape?_escapeChar_append (c : Char) (rest : List Char) :
    unescape? (escapeChar c ++ rest) = (unescape? rest).map (Prod.map (c :: ·) id) := by
  unfold escapeChar
  split
  -- the last case is that of a character that stands for itself
  case h_5 hquote hbackslash _ _ =>
    rw [List.singleton_append, unescape?]
    · exact hquote
    · exact fun _ _ h => (hbackslash h).elim
  all_goals rfl

/-- **What is quoted is read back**, up to the closing quote and no further. -/
theorem unescape?_escape (cs rest : List Char) :
    unescape? (escape cs ++ '"' :: rest) = some (cs, rest) := by
  induction cs with
  | nil => rfl
  | cons c cs ih =>
    rw [escape_cons, List.append_assoc, unescape?_escapeChar_append, ih]
    rfl

theorem quote_append (s : String) (rest : List Char) :
    quote s ++ rest = '"' :: (escape s.toList ++ '"' :: rest) := by
  rw [quote, List.cons_append, List.append_assoc, List.singleton_append]

theorem quote_append_inj {s t : String} {u v : List Char} (h : quote s ++ u = quote t ++ v) :
    s = t ∧ u = v := by
  have hread := unescape?_escape s.toList u
  rw [quote_append, quote_append] at h
  rw [(List.cons.inj h).2, unescape?_escape] at hread
  obtain ⟨hst, huv⟩ := Prod.mk.inj (Option.some_inj.1 hread)
  exact ⟨String.toList_inj.1 hst.symm, huv.symm⟩

end Quoted

/-! ## Lists -/

namespace Layout
section
variable {α β : Type} {f : α → List Char} {g : β → List Char} {R : α → β → Prop} {closing : Char}

/-- What follows the first element of a list on one line. -/
def tail (closing : Char) (items : List (List Char)) : List Char :=
  items.flatMap (fun item => ',' :: ' ' :: item) ++ [' ', closing]

theorem bracketed_line_cons (opening closing : Char) (first : List Char) (rest : List (List Char)) :
    line.bracketed opening closing (first :: rest) = opening :: ' ' :: (first ++ tail closing rest) := by
  show opening :: (' ' :: first ++ rest.flatMap _ ++ [' '] ++ [closing]) = _
  rw [List.append_assoc, List.append_assoc]
  rfl

theorem tail_cons (closing : Char) (item : List Char) (items : List (List Char)) :
    tail closing (item :: items) = ',' :: ' ' :: (item ++ tail closing items) := by
  unfold tail
  rw [List.flatMap_cons, List.append_assoc]
  rfl

theorem delimited_tail_append (closing : Char) (items : List (List Char)) (rest : List Char) :
    Delimited (tail closing items ++ rest) := by
  cases items with
  | nil => exact delimited_cons (.inr rfl) _
  | cons item items => exact delimited_cons (.inl rfl) _

theorem forall₂_of_tail_append_eq {as : List α} {bs : List β} {u v : List Char}
    (hends : ∀ a ∈ as, ∀ b u v, Delimited u → Delimited v → f a ++ u = g b ++ v → R a b ∧ u = v)
    (h : tail closing (as.map f) ++ u = tail closing (bs.map g) ++ v) :
    List.Forall₂ R as bs ∧ u = v := by
  induction as generalizing bs with
  | nil =>
    cases bs with
    | nil => exact ⟨.nil, List.append_cancel_left h⟩
    | cons b bs => exact absurd (List.cons.inj h).1 (by decide : ' ' ≠ ',')
  | cons a as ih =>
    cases bs with
    | nil => exact absurd (List.cons.inj h).1 (by decide : ',' ≠ ' ')
    | cons b bs =>
      rw [List.map_cons, List.map_cons, tail_cons, tail_cons, List.cons_append, List.cons_append,
        List.cons_append, List.cons_append, List.append_assoc, List.append_assoc] at h
      obtain ⟨hab, hrest⟩ := hends a List.mem_cons_self b _ _ (delimited_tail_append _ _ _)
        (delimited_tail_append _ _ _) (List.cons.inj (List.cons.inj h).2).2
      obtain ⟨habs, huv⟩ := ih (fun a ha => hends a (List.mem_cons_of_mem _ ha)) hrest
      exact ⟨.cons hab habs, huv⟩

/-- **Lists are told apart by their elements.**  If the texts of two elements say that the elements are
related, and end by themselves, then the texts of two lists say that the elements are related one by one,
and they end by themselves. -/
theorem forall₂_of_bracketed_append_eq {as : List α} {bs : List β} {u v : List Char} {opening : Char}
    (hclosing : closing ≠ ' ')
    (hends : ∀ a ∈ as, ∀ b u v, Delimited u → Delimited v → f a ++ u = g b ++ v → R a b ∧ u = v)
    (h : line.bracketed opening closing (as.map f) ++ u =
      line.bracketed opening closing (bs.map g) ++ v) : List.Forall₂ R as bs ∧ u = v := by
  cases as with
  | nil =>
    cases bs with
    | nil => exact ⟨.nil, List.append_cancel_left h⟩
    | cons b bs => exact absurd (List.cons.inj (List.cons.inj h).2).1 hclosing
  | cons a as =>
    cases bs with
    | nil => exact absurd (List.cons.inj (List.cons.inj h).2).1 hclosing.symm
    | cons b bs =>
      rw [List.map_cons, List.map_cons, bracketed_line_cons, bracketed_line_cons, List.cons_append,
        List.cons_append, List.cons_append, List.cons_append, List.append_assoc, List.append_assoc] at h
      obtain ⟨hab, hrest⟩ := hends a List.mem_cons_self b _ _ (delimited_tail_append _ _ _)
        (delimited_tail_append _ _ _) (List.cons.inj (List.cons.inj h).2).2
      obtain ⟨habs, huv⟩ :=
        forall₂_of_tail_append_eq (fun a ha => hends a (List.mem_cons_of_mem _ ha)) hrest
      exact ⟨.cons hab habs, huv⟩

end
end Layout
end ExprLang
