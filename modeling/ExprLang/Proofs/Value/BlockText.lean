import ExprLang.Proofs.Decimal.PlainNotation
import ExprLang.Proofs.Text.Lines
import ExprLang.Proofs.Value.Bare

/-!
# The two texts of a value

The text of a value on several lines is its text on one line, laid out: joined it is that text, and each
line is indented by one tab for each bracket that is open there (`blockText_layout`).

The writer does not count brackets.  It hands an indent down that grows by a tab for each level, so at every
level the indent has to be compared with what a scan of the text before it counts.  `Layout.under indent depth`
is the layout that the writer has reached where `depth` brackets are open, and a value in that layout is
laid out from a scan with `depth` open brackets to one with as many (`laidOutItem_chars`).
-/

namespace ExprLang

/-! ## Items -/

/-- What the text of a value or an entry is like where it stands under a number of open brackets: it is laid
out, leaves as many brackets open, and begins with a character that a gap cannot be mistaken at. -/
structure LaidOutItem (indent : List Char) (depth : ℕ) (block line : List Char) : Prop extends
    LaidOut indent ⟨depth, .outside⟩ ⟨depth, .outside⟩ block line where
  starts : ∃ c rest, block = c :: rest ∧ isBlank c = false ∧ isClosing c = false

section
variable {indent : List Char} {depth : ℕ}

theorem laidOutItem_of_word (cs : List Char) (hcs : ∀ c ∈ cs, isWordChar c = true) (hne : cs ≠ []) :
    LaidOutItem indent depth cs cs := by
  have hnewline : '\n' ∉ cs := fun h => absurd (hcs _ h) (by decide)
  have hrun : Scan.run ⟨depth, .outside⟩ cs = ⟨depth, .outside⟩ :=
    Scan.run_eq_self fun c hc => Scan.step_of_isWordChar (hcs c hc) depth
  have hlaidOut : LaidOut indent ⟨depth, .outside⟩ ⟨depth, .outside⟩ cs cs :=
    laidOut_of_not_mem cs hnewline hrun
  obtain ⟨c, rest, rfl⟩ := List.exists_cons_of_ne_nil hne
  have hc := hcs c List.mem_cons_self
  exact ⟨hlaidOut, c, rest, rfl, isBlank_of_isWordChar hc, isClosing_of_isWordChar hc⟩

/-- Newlines are among the characters that are escaped. -/
theorem newline_not_mem_escapeChar (c : Char) : '\n' ∉ Quoted.escapeChar c := by
  unfold Quoted.escapeChar
  split
  case h_5 _ _ hnewline _ => exact fun h => hnewline (List.mem_singleton.1 h).symm
  all_goals decide

theorem newline_not_mem_quote (s : String) : '\n' ∉ Quoted.quote s := by
  intro h
  rcases List.mem_cons.1 h with h | h
  · exact absurd h (by decide)
  · rcases List.mem_append.1 h with h | h
    · obtain ⟨c, -, hc⟩ := List.mem_flatMap.1 h
      exact newline_not_mem_escapeChar c hc
    · exact absurd h (by decide)

theorem laidOut_quote (s : String) :
    LaidOut indent ⟨depth, .outside⟩ ⟨depth, .outside⟩ (Quoted.quote s) (Quoted.quote s) :=
  laidOut_of_not_mem (Quoted.quote s) (newline_not_mem_quote s) (Scan.run_quote s depth)

theorem LaidOutItem.afterGap {block line : List Char} (hindent : ∀ d ∈ indent, isBlank d = true)
    (h : LaidOutItem indent depth block line) :
    LaidOut indent ⟨depth, .outside⟩ ⟨depth, .outside⟩
      ('\n' :: (indent ++ List.replicate depth '\t') ++ block) (' ' :: line) := by
  obtain ⟨c, rest, rfl, hblank, hclosing⟩ := h.starts
  exact h.toLaidOut.afterGap hindent hblank (by rw [hclosing]; rfl)

theorem laidOutItem_entry (key : String) {block line : List Char}
    (h : LaidOutItem indent depth block line) :
    LaidOutItem indent depth (Quoted.quote key ++ ':' :: ' ' :: block)
      (Quoted.quote key ++ ':' :: ' ' :: line) := by
  have hcolon : LaidOut indent ⟨depth, .outside⟩ ⟨depth, .outside⟩ [':', ' '] [':', ' '] :=
    laidOut_of_not_mem [':', ' '] (by decide) rfl
  exact ⟨(laidOut_quote key).append (hcolon.append h.toLaidOut), '"', _, rfl, by decide⟩

/-! ## Lists -/

namespace Layout

/-- The layout of what stands under a number of open brackets. -/
def under (indent : List Char) (depth : ℕ) : Layout := block (indent ++ List.replicate depth '\t')

theorem inner_under (indent : List Char) (depth : ℕ) :
    (under indent depth).inner = under indent (depth + 1) := by
  rw [under, inner, List.append_assoc, under, List.replicate_succ']

theorem gap_under (indent : List Char) (depth : ℕ) :
    (under indent depth).gap = '\n' :: (indent ++ List.replicate depth '\t') := rfl

theorem bracketed_cons (layout : Layout) (opening closing : Char) (first : List Char)
    (rest : List (List Char)) : layout.bracketed opening closing (first :: rest) =
      [opening] ++ ((layout.inner.gap ++ first ++ rest.flatMap fun item => ',' :: (layout.inner.gap ++ item))
        ++ (layout.gap ++ [closing])) :=
  congrArg (opening :: ·) (List.append_assoc _ _ _)

section
variable {α : Type} {f g : α → List Char} {as : List α} {opening closing : Char}

theorem laidOut_elements (hindent : ∀ d ∈ indent, isBlank d = true)
    (has : ∀ a ∈ as, LaidOutItem indent depth (f a) (g a)) :
    LaidOut indent ⟨depth, .outside⟩ ⟨depth, .outside⟩
      ((as.map f).flatMap fun item => ',' :: ((under indent depth).gap ++ item))
      ((as.map g).flatMap fun item => ',' :: (line.gap ++ item)) := by
  induction as with
  | nil => exact laidOut_of_not_mem [] List.not_mem_nil rfl
  | cons a as ih =>
    have hcomma : LaidOut indent ⟨depth, .outside⟩ ⟨depth, .outside⟩ [','] [','] :=
      laidOut_of_not_mem [','] (by decide) rfl
    have helement := hcomma.append ((has a List.mem_cons_self).afterGap hindent)
    exact helement.append (ih fun a ha => has a (List.mem_cons_of_mem _ ha))

/-- **A list is laid out if its elements are**, under one more bracket. -/
theorem laidOutItem_bracketed (hindent : ∀ d ∈ indent, isBlank d = true)
    (hopening : opening = '[' ∨ opening = '\x7b') (hclosing : closing = ']' ∨ closing = '\x7d')
    (has : ∀ a ∈ as, LaidOutItem indent (depth + 1) (f a) (g a)) :
    LaidOutItem indent depth ((under indent depth).bracketed opening closing (as.map f))
      (line.bracketed opening closing (as.map g)) := by
  have hopen : LaidOut indent ⟨depth, .outside⟩ ⟨depth + 1, .outside⟩ [opening] [opening] := by
    rcases hopening with rfl | rfl
    · exact laidOut_of_not_mem ['['] (by decide) rfl
    · exact laidOut_of_not_mem ['\x7b'] (by decide) rfl
  have hclose : LaidOut indent ⟨depth + 1, .outside⟩ ⟨depth, .outside⟩ [closing] [closing] := by
    rcases hclosing with rfl | rfl
    · exact laidOut_of_not_mem [']'] (by decide) rfl
    · exact laidOut_of_not_mem ['\x7d'] (by decide) rfl
  have hstarts : isBlank opening = false ∧ isClosing opening = false := by
    rcases hopening with rfl | rfl <;> decide
  cases as with
  | nil => exact ⟨hopen.append hclose, opening, [closing], rfl, hstarts⟩
  | cons a as =>
    -- the gap before the closing bracket has a tab less than those before the elements
    have hlast : LaidOut indent ⟨depth + 1, .outside⟩ ⟨depth, .outside⟩
        ((under indent depth).gap ++ [closing]) (line.gap ++ [closing]) := by
      rcases hclosing with rfl | rfl <;> exact hclose.afterGap hindent (by decide) rfl
    have hfirst := (has a List.mem_cons_self).afterGap hindent
    have hrest := laidOut_elements hindent fun b hb => has b (List.mem_cons_of_mem a hb)
    have hall := hopen.append ((hfirst.append hrest).append hlast)
    rw [← gap_under, ← inner_under] at hall
    rw [List.map_cons, List.map_cons, bracketed_cons, bracketed_cons]
    exact ⟨hall, opening, _, rfl, hstarts⟩

end
end Layout
end

/-! ## Values -/

namespace Value
section
variable {indent : List Char} (hindent : ∀ d ∈ indent, isBlank d = true)
include hindent

/-- **The text of a value in block layout is its text on one line, laid out.** -/
theorem laidOutItem_chars (v : Value) (depth : ℕ) :
    LaidOutItem indent depth (v.chars (.under indent depth)) (v.chars .line) := by
  induction v using Value.induction generalizing depth with
  | boolean b p =>
    cases b with
    | true => exact laidOutItem_of_word ['t', 'r', 'u', 'e'] (List.all_eq_true.1 rfl) (by decide)
    | false => exact laidOutItem_of_word ['f', 'a', 'l', 's', 'e'] (List.all_eq_true.1 rfl) (by decide)
  | string s p => exact ⟨laidOut_quote s, '"', _, rfl, by decide⟩
  | number x p =>
    exact laidOutItem_of_word x.plainChars (fun _ => Number.isWordChar_of_mem_plainChars) x.plainChars_ne_nil
  | array items p ih =>
    rw [chars, chars, itemChars_eq_map, itemChars_eq_map, Layout.inner_under]
    exact Layout.laidOutItem_bracketed hindent (.inl rfl) (.inl rfl) fun v hv => ih v hv (depth + 1)
  | map entries p ih =>
    rw [chars, chars, entryChars_eq_map, entryChars_eq_map, Layout.inner_under]
    exact Layout.laidOutItem_bracketed hindent (.inr rfl) (.inr rfl) fun e he =>
      laidOutItem_entry e.1 (ih e he (depth + 1))
  | range integers p =>
    rw [chars, chars]
    exact Layout.laidOutItem_bracketed hindent (.inl rfl) (.inl rfl) fun n _ =>
      laidOutItem_of_word (integerChars n) (fun _ => isWordChar_of_mem_integerChars) (integerChars_ne_nil n)
  | null p => exact laidOutItem_of_word ['n', 'u', 'l', 'l'] (List.all_eq_true.1 rfl) (by decide)
  | undefined p =>
    exact laidOutItem_of_word ['u', 'n', 'd', 'e', 'f', 'i', 'n', 'e', 'd'] (List.all_eq_true.1 rfl) (by decide)

end

/-- **Block layout only lays out.**  Let the indent of a text consist of blanks.  With one blank for each
newline and the blanks behind it the text of a value on several lines is its text on one line.  The blanks
behind a newline are the indent and one tab for each bracket that is open there, except for a bracket that
is closed by the character behind the blanks. -/
theorem blockText_layout (v : Value) (indent : String) (hindent : ∀ c ∈ indent.toList, isBlank c = true) :
    joinLines (v.blockText indent).toList = v.text.toList ∧
      ∀ before after, (v.blockText indent).toList = before ++ '\n' :: after →
        after.takeWhile isBlank = indent.toList ++ List.replicate (openBrackets before -
          if (after.dropWhile isBlank).head?.any isClosing then 1 else 0) '\t' := by
  have hlaidOut := (laidOutItem_chars hindent v 0).toLaidOut
  have hlayout : Layout.under indent.toList 0 = .block indent.toList :=
    congrArg Layout.block (List.append_nil _)
  rw [hlayout] at hlaidOut
  rw [blockText, text, String.toList_ofList, String.toList_ofList]
  constructor
  · have hjoin := hlaidOut.joinLines_eq []
    rwa [List.append_nil, joinLines, List.append_nil] at hjoin
  · intro before after hsplit
    have hlines := hlaidOut.indentedLines
    rw [hsplit] at hlines
    exact hlines.indented.takeWhile_eq hindent

/-- The line that closes a map with a key that looks like an open bracket. -/
theorem blockText_layout_of_key :
    let v := map [("[", array [])]
    let before := ['\x7b', '\n', ' ', '\t', '\t', '"', '[', '"', ':', ' ', '[', ']']
    let after := [' ', '\t', '\x7d']
    (v.blockText " \t").toList = before ++ '\n' :: after ∧
      joinLines (before ++ '\n' :: after) = v.text.toList ∧
      after.takeWhile isBlank = " \t".toList ++ List.replicate (openBrackets before - 1) '\t' := by
  intro v before after
  have htext : (v.blockText " \t").toList = before ++ '\n' :: after := by decide +kernel
  obtain ⟨hjoin, hlines⟩ := blockText_layout v " \t" (List.all_eq_true.1 rfl)
  exact ⟨htext, htext ▸ hjoin, hlines before after htext⟩

end Value
end ExprLang
