import ExprLang.Proofs.Text.Delimited

/-!
# Lines

A text on several lines is laid out by indents.  `joinLines` takes the layout away again, and a scan of the
text says what the indents should be: it counts the brackets that are open, passing over those between
quotes (`Scan.step`).  A line is indented as it should be if it begins with the indent of the whole text
and a tab for each bracket that is open there (`Indented`).

Both are told piece by piece.  `LaidOut` is what a piece of a text contributes: from one state of the scan to
the next its lines are indented as they should be, and joined they are a given text.  Pieces without a newline
are laid out whatever they are, pieces can be put one behind the other, and a gap may be put before a piece
if it is as long as its first character demands (`LaidOut.afterGap`).  From these three the lists are built,
which open a bracket for their elements and close it after a gap of its own (`Layout.laidOutItem_bracketed`).
-/

namespace ExprLang

/-! ## Joining -/

/-- Whether a character is one of those that lines are indented with. -/
def isBlank (c : Char) : Bool := c == ' ' || c == '\t'

theorem isBlank_of_isWordChar {c : Char} (hc : isWordChar c = true) : isBlank c = false := by
  rw [isBlank, Bool.or_eq_false_iff, beq_eq_false_iff_ne, beq_eq_false_iff_ne]
  exact ⟨ne_of_isWordChar hc rfl, ne_of_isWordChar hc rfl⟩

/-- The text with one blank for each newline and the blanks behind it. -/
def joinLines : List Char → List Char
  | [] => []
  | c :: cs => if c = '\n' then ' ' :: joinLines (cs.dropWhile isBlank) else c :: joinLines cs
termination_by cs => cs.length
decreasing_by
  · exact Nat.lt_succ_of_le (List.dropWhile_sublist _).length_le
  · exact Nat.lt_succ_self _

theorem joinLines_newline (cs : List Char) :
    joinLines ('\n' :: cs) = ' ' :: joinLines (cs.dropWhile isBlank) := by
  rw [joinLines, if_pos rfl]

theorem joinLines_cons {c : Char} (hc : c ≠ '\n') (cs : List Char) :
    joinLines (c :: cs) = c :: joinLines cs := by
  rw [joinLines, if_neg hc]

theorem joinLines_append {cs : List Char} (hcs : '\n' ∉ cs) (rest : List Char) :
    joinLines (cs ++ rest) = cs ++ joinLines rest := by
  induction cs with
  | nil => rfl
  | cons c cs ih =>
    have hc : c ≠ '\n' := fun h => hcs (h ▸ List.mem_cons_self)
    rw [List.cons_append, joinLines_cons hc, ih fun h => hcs (List.mem_cons_of_mem c h), List.cons_append]

/-! ## Open brackets -/

def isClosing (c : Char) : Bool := c == ']' || c == '\x7d'

theorem isClosing_of_isWordChar {c : Char} (hc : isWordChar c = true) : isClosing c = false := by
  rw [isClosing, Bool.or_eq_false_iff, beq_eq_false_iff_ne, beq_eq_false_iff_ne]
  exact ⟨ne_of_isWordChar hc rfl, ne_of_isWordChar hc rfl⟩

/-- Where a scan stands with regard to quotes. -/
inductive Quoting where
  | outside
  | inside
  /-- Inside, behind a backslash. -/
  | escaped

/-- What a scan knows of the text before it. -/
structure Scan where
  /-- How many brackets are open. -/
  depth : ℕ
  quoting : Quoting := .outside

namespace Scan

/-- What the scan knows after one more character. -/
def step (s : Scan) (c : Char) : Scan :=
  match s.quoting with
  | .outside =>
    if c = '"' then ⟨s.depth, .inside⟩
    else if c = '[' ∨ c = '\x7b' then ⟨s.depth + 1, .outside⟩
    else if isClosing c = true then ⟨s.depth - 1, .outside⟩
    else s
  | .inside =>
    if c = '"' then ⟨s.depth, .outside⟩
    else if c = '\\' then ⟨s.depth, .escaped⟩
    else s
  | .escaped => ⟨s.depth, .inside⟩

/-- What the scan knows after a text. -/
def run (s : Scan) (cs : List Char) : Scan := cs.foldl step s

theorem run_append (s : Scan) (cs ds : List Char) : s.run (cs ++ ds) = (s.run cs).run ds :=
  List.foldl_append

theorem run_eq_self {s : Scan} {cs : List Char} (h : ∀ c ∈ cs, s.step c = s) : s.run cs = s := by
  induction cs with
  | nil => rfl
  | cons c cs ih =>
    show (s.step c).run cs = s
    rw [h c List.mem_cons_self]
    exact ih fun d hd => h d (List.mem_cons_of_mem c hd)

theorem step_of_isBlank {c : Char} (hc : isBlank c = true) (depth : ℕ) :
    step ⟨depth, .outside⟩ c = ⟨depth, .outside⟩ := by
  rw [isBlank, Bool.or_eq_true, beq_iff_eq, beq_iff_eq] at hc
  rcases hc with rfl | rfl <;> rfl

theorem step_of_isWordChar {c : Char} (hc : isWordChar c = true) (depth : ℕ) :
    step ⟨depth, .outside⟩ c = ⟨depth, .outside⟩ := by
  have hopening : ¬ (c = '[' ∨ c = '\x7b') :=
    fun h => h.elim (ne_of_isWordChar hc rfl) (ne_of_isWordChar hc rfl)
  have hclosing : ¬ isClosing c = true := by
    rw [isClosing_of_isWordChar hc]
    decide
  show ite _ _ _ = _
  rw [if_neg (ne_of_isWordChar hc rfl), if_neg hopening, if_neg hclosing]

theorem run_escapeChar (c : Char) (depth : ℕ) :
    run ⟨depth, .inside⟩ (Quoted.escapeChar c) = ⟨depth, .inside⟩ := by
  unfold Quoted.escapeChar
  split
  -- the last case is that of a character that stands for itself
  case h_5 hquote hbackslash _ _ =>
    show ite _ _ _ = _
    rw [if_neg hquote, if_neg hbackslash]
  all_goals rfl

/-- **What stands between quotes opens and closes no brackets.** -/
theorem run_quote (s : String) (depth : ℕ) :
    run ⟨depth, .outside⟩ (Quoted.quote s) = ⟨depth, .outside⟩ := by
  have hescape : ∀ cs, run ⟨depth, .inside⟩ (Quoted.escape cs) = ⟨depth, .inside⟩ := by
    intro cs
    induction cs with
    | nil => rfl
    | cons c cs ih => rw [Quoted.escape_cons, run_append, run_escapeChar, ih]
  show run ⟨depth, .inside⟩ (Quoted.escape s.toList ++ ['"']) = _
  rw [run_append, hescape]
  rfl

end Scan

/-- How many brackets are open after a text. -/
def openBrackets (cs : List Char) : ℕ := (Scan.run { depth := 0 } cs).depth

/-! ## Indents -/

/-- What follows a newline begins with an indent and a tab for each open bracket, except for one that is
closed right there. -/
def Indented (indent : List Char) (depth : ℕ) (cs : List Char) : Prop :=
  ∃ c rest, isBlank c = false ∧
    cs = indent ++ List.replicate (depth - if isClosing c then 1 else 0) '\t' ++ c :: rest

/-- All lines but the first are indented as they should be. -/
def IndentedLines (indent : List Char) : Scan → List Char → Prop
  | _, [] => True
  | s, c :: cs => (c = '\n' → Indented indent s.depth cs) ∧ IndentedLines indent (s.step c) cs

section
variable {indent : List Char}

theorem isBlank_of_mem_append_tabs (hindent : ∀ d ∈ indent, isBlank d = true) (tabs : ℕ) :
    ∀ d ∈ indent ++ List.replicate tabs '\t', isBlank d = true := by
  intro d hd
  rcases List.mem_append.1 hd with hd | hd
  · exact hindent d hd
  · rw [List.eq_of_mem_replicate hd]
    rfl

/-- The blanks in front are the indent and the tabs, and the character behind them says how many there are. -/
theorem Indented.takeWhile_eq {depth : ℕ} {cs : List Char} (hindent : ∀ d ∈ indent, isBlank d = true)
    (h : Indented indent depth cs) : cs.takeWhile isBlank = indent ++
      List.replicate (depth - if (cs.dropWhile isBlank).head?.any isClosing then 1 else 0) '\t' := by
  obtain ⟨c, rest, hc, rfl⟩ := h
  have hhead : ∀ d ∈ (c :: rest).head?, isBlank d = false := fun d hd => Option.some_inj.1 hd ▸ hc
  obtain ⟨htake, hdrop⟩ := span_append
    (isBlank_of_mem_append_tabs hindent (depth - if isClosing c then 1 else 0)) hhead
  rw [htake, hdrop]
  rfl

theorem indentedLines_append {s : Scan} {cs ds : List Char} (hcs : IndentedLines indent s cs)
    (hds : IndentedLines indent (s.run cs) ds) : IndentedLines indent s (cs ++ ds) := by
  induction cs generalizing s with
  | nil => exact hds
  | cons c cs ih =>
    refine ⟨fun hc => ?_, ih hcs.2 hds⟩
    obtain ⟨d, rest, hd, rfl⟩ := hcs.1 hc
    exact ⟨d, rest ++ ds, hd, List.append_assoc _ _ _⟩

theorem indentedLines_of_not_mem {cs : List Char} (hcs : '\n' ∉ cs) (s : Scan) :
    IndentedLines indent s cs := by
  induction cs generalizing s with
  | nil => trivial
  | cons c cs ih =>
    exact ⟨fun hc => absurd (hc ▸ List.mem_cons_self) hcs, ih (fun h => hcs (List.mem_cons_of_mem c h)) _⟩

theorem IndentedLines.indented {s : Scan} {before after : List Char}
    (h : IndentedLines indent s (before ++ '\n' :: after)) : Indented indent (s.run before).depth after := by
  induction before generalizing s with
  | nil => exact h.1 rfl
  | cons c before ih => exact ih h.2

/-! ## Pieces -/

/-- What a piece of a text is like, from one state of the scan to another: its lines are indented as they
should be, and joined they are a given text. -/
structure LaidOut (indent : List Char) (s t : Scan) (block line : List Char) : Prop where
  run_eq : s.run block = t
  indentedLines : IndentedLines indent s block
  joinLines_eq : ∀ rest, joinLines (block ++ rest) = line ++ joinLines rest

theorem LaidOut.append {s t u : Scan} {block line block' line' : List Char}
    (h : LaidOut indent s t block line) (h' : LaidOut indent t u block' line') :
    LaidOut indent s u (block ++ block') (line ++ line') where
  run_eq := by rw [Scan.run_append, h.run_eq, h'.run_eq]
  indentedLines := indentedLines_append h.indentedLines (h.run_eq ▸ h'.indentedLines)
  joinLines_eq rest := by rw [List.append_assoc, h.joinLines_eq, h'.joinLines_eq, List.append_assoc]

/-- A text without a newline is laid out as it is. -/
theorem laidOut_of_not_mem (cs : List Char) (hcs : '\n' ∉ cs) {s t : Scan} (hrun : s.run cs = t) :
    LaidOut indent s t cs cs :=
  ⟨hrun, indentedLines_of_not_mem hcs s, joinLines_append hcs⟩

/-- **A gap is as long as the character behind it demands.** -/
theorem LaidOut.afterGap {depth : ℕ} {t : Scan} {c : Char} {cs line gap : List Char}
    (hindent : ∀ d ∈ indent, isBlank d = true) (hc : isBlank c = false)
    (hgap : gap = '\n' :: (indent ++ List.replicate (depth - if isClosing c then 1 else 0) '\t'))
    (h : LaidOut indent ⟨depth, .outside⟩ t (c :: cs) line) :
    LaidOut indent ⟨depth, .outside⟩ t (gap ++ c :: cs) (' ' :: line) := by
  subst hgap
  have hblank := isBlank_of_mem_append_tabs hindent (depth - if isClosing c then 1 else 0)
  generalize htabs : List.replicate (depth - if isClosing c then 1 else 0) '\t' = tabs at hblank ⊢
  have hrun : Scan.run ⟨depth, .outside⟩ (indent ++ tabs) = ⟨depth, .outside⟩ :=
    Scan.run_eq_self fun d hd => Scan.step_of_isBlank (hblank d hd) depth
  have hnewline : '\n' ∉ indent ++ tabs := fun h => absurd (hblank _ h) (by decide)
  refine ⟨?_, ⟨fun _ => ⟨c, cs, hc, ?_⟩, ?_⟩, fun rest => ?_⟩
  · show Scan.run ⟨depth, .outside⟩ (indent ++ tabs ++ c :: cs) = t
    rw [Scan.run_append, hrun, h.run_eq]
  · rw [htabs]
    rfl
  · exact indentedLines_append (indentedLines_of_not_mem hnewline _) (hrun.symm ▸ h.indentedLines)
  · have hhead : ∀ d ∈ (c :: cs ++ rest).head?, isBlank d = false :=
      fun d hd => Option.some_inj.1 hd ▸ hc
    have hdrop := (span_append hblank hhead).2
    rw [List.cons_append, List.cons_append, joinLines_newline, List.append_assoc, hdrop, h.joinLines_eq]
    rfl

end
end ExprLang
