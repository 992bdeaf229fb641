import ExprLang.Evaluation
import ExprLang.Proofs.Value.Comparison

/-!
# What operations complain about

An operation on values can fail inside a conversion, and a conversion has a class of faults of its own.
None of these gets out of an operator.  Whatever an operator, a subscript or the reading of a
variable raises is *fresh*: it is of evaluation, and no node has located it yet.

A conversion has no position either, so rewording makes its fault fresh
(`failsFresh_reword_toNumber`, `failsFresh_reword_toText`).  These two are all that operators build
on.  From there freshness passes through sequences of steps, and there is one lemma for each
function that evaluation calls, up to those that the nodes call themselves:
`UnaryOp.failsFresh_apply`, `BinaryOp.failsFresh_apply`, `failsFresh_index` and
`Environment.failsFresh_read`.
-/

namespace ExprLang

/-- A fault of evaluation that no node has located yet. -/
structure Fault.Fresh (f : Fault) : Prop where
  isEvaluation : f.cause.isEvaluation = true
  position_eq : f.position = none

theorem Fault.fresh_complain (complaint : Complaint) : (complain complaint).Fresh := ⟨rfl, rfl⟩

/-! ## Outcomes -/

namespace Outcome
variable {α β : Type}

/-- What goes wrong, if anything does, is fresh. -/
def FailsFresh (o : Outcome α) : Prop := ∀ f, o = .error f → f.Fresh

theorem failsFresh_ok (a : α) : FailsFresh (.ok a) := fun _ h => nomatch h

theorem failsFresh_error {f : Fault} (h : f.Fresh) : FailsFresh (.error f : Outcome α) := by
  rintro _ ⟨⟩
  exact h

/-- A sequence of two steps fails as one of them. -/
theorem FailsFresh.bind {o : Outcome α} {f : α → Outcome β} (ho : FailsFresh o)
    (hf : ∀ a, FailsFresh (f a)) : FailsFresh (o >>= f) := by
  cases o with
  | ok a => exact hf a
  | error g => exact failsFresh_error (ho g rfl)

theorem FailsFresh.map {o : Outcome α} (ho : FailsFresh o) (f : α → β) :
    FailsFresh (Except.map f o) := by
  cases o with
  | ok a => exact failsFresh_ok (f a)
  | error g => exact failsFresh_error (ho g rfl)

/-- So does one step for each element of a list. -/
theorem failsFresh_mapM {f : α → Outcome β} (hf : ∀ a, FailsFresh (f a)) (as : List α) :
    FailsFresh (as.mapM f) := by
  induction as with
  | nil => exact failsFresh_ok []
  | cons a as ih =>
    rw [List.mapM_cons]
    exact (hf a).bind fun b => ih.bind fun bs => failsFresh_ok (b :: bs)

end Outcome

open Outcome

namespace Value

/-! ## Conversions inside operators -/

theorem failsFresh_reword_toNumber (complaint : Complaint) (v : Value) :
    FailsFresh (Outcome.reword complaint v.toNumber) := by
  rw [toNumber]
  split
  · exact failsFresh_ok _
  · exact failsFresh_error ⟨rfl, rfl⟩

theorem failsFresh_reword_toText (complaint : Complaint) (v : Value) :
    FailsFresh (Outcome.reword complaint v.toText) := by
  rw [toText]
  split
  · exact failsFresh_ok _
  · exact failsFresh_error ⟨rfl, rfl⟩

/-! ## Arithmetic -/

theorem failsFresh_plus (v : Value) : FailsFresh v.plus :=
  (failsFresh_reword_toNumber _ v).bind fun _ => failsFresh_ok _

theorem failsFresh_minus (v : Value) : FailsFresh v.minus :=
  (failsFresh_reword_toNumber _ v).bind fun _ => failsFresh_ok _

theorem failsFresh_bothNumbers (op : BinaryOp) (v w : Value) : FailsFresh (bothNumbers op v w) :=
  (failsFresh_reword_toNumber _ v).bind fun _ =>
    (failsFresh_reword_toNumber _ w).bind fun _ => failsFresh_ok _

theorem failsFresh_arithmetic (op : BinaryOp) (f : Number → Number → Number) (v w : Value) :
    FailsFresh (arithmetic op f v w) :=
  (failsFresh_bothNumbers op v w).bind fun _ => failsFresh_ok _

theorem failsFresh_concatenate (v w : Value) : FailsFresh (concatenate v w) :=
  (failsFresh_reword_toText _ v).bind fun _ =>
    (failsFresh_reword_toText _ w).bind fun _ => failsFresh_ok _

theorem failsFresh_add (v w : Value) : FailsFresh (v.add w) := by
  rw [add.eq_def]
  split
  · exact failsFresh_ok _
  · exact failsFresh_ok _
  · exact failsFresh_concatenate v w
  · exact failsFresh_concatenate v w
  · exact failsFresh_arithmetic _ _ v w

/-! ## Comparison and ranges -/

theorem failsFresh_compare (v w : Value) : FailsFresh (v.compare w) := by
  by_cases h : Structural v w
  · rw [compare_of_structural h]
    exact failsFresh_ok _
  · rw [compare_of_not_structural h]
    split
    · exact failsFresh_ok _
    · exact failsFresh_error (Fault.fresh_complain _)

theorem failsFresh_rangeBounds (v w : Value) : FailsFresh (v.rangeBounds w) :=
  (failsFresh_bothNumbers _ v w).bind fun _ => failsFresh_ok _

/-! ## Indexing -/

theorem failsFresh_resolve (v : Value) (x : Number) (i : Value) (length : Nat) :
    FailsFresh (v.resolve x i length) := by
  rw [resolve]
  split
  · split
    · exact failsFresh_ok _
    · exact failsFresh_error ⟨rfl, rfl⟩
  · exact failsFresh_error ⟨rfl, rfl⟩

theorem failsFresh_resolveItem (v : Value) (length : Nat) (i : Value) :
    FailsFresh (v.resolveItem length i) := by
  rw [resolveItem]
  split
  · exact failsFresh_resolve v _ i length
  · exact failsFresh_error ⟨rfl, rfl⟩

theorem failsFresh_resolveInteger (v : Value) (length : Nat) (n : Int) :
    FailsFresh (v.resolveInteger length n) := by
  rw [resolveInteger]
  split
  · exact failsFresh_ok _
  · exact failsFresh_error ⟨rfl, rfl⟩

theorem failsFresh_select (v i : Value) (length : Nat) : FailsFresh (v.select i length) := by
  rw [select]
  split
  · exact (failsFresh_resolve v _ i length).map _
  · exact (failsFresh_mapM (failsFresh_resolveInteger v length) _).map _
  · exact (failsFresh_mapM (failsFresh_resolveItem v length) _).map _
  · exact failsFresh_error ⟨rfl, rfl⟩

theorem failsFresh_entryFor (v : Value) (entries : Entries Value) (i : Value) :
    FailsFresh (v.entryFor entries i) := by
  rw [entryFor]
  split
  · exact failsFresh_ok _
  · exact failsFresh_error ⟨rfl, rfl⟩

theorem failsFresh_index (v i : Value) : FailsFresh (v.index i) := by
  rw [index]
  split
  · exact (failsFresh_select v i _).map _
  · exact (failsFresh_select v i _).map _
  · exact (failsFresh_select v i _).map _
  · split
    · split
      · exact failsFresh_ok _
      · exact failsFresh_error ⟨rfl, rfl⟩
    · exact (failsFresh_mapM (failsFresh_entryFor v _) _).bind fun _ => failsFresh_ok _
    · exact failsFresh_error ⟨rfl, rfl⟩
  · exact failsFresh_error ⟨rfl, rfl⟩

end Value

/-! ## What the nodes do -/

theorem failsFresh_compareBy (test : Ordering → Bool) (v w : Value) :
    FailsFresh (compareBy test v w) :=
  (v.failsFresh_compare w).map _

theorem Settings.failsFresh_range (s : Settings) (v w : Value) : FailsFresh (s.range v w) := by
  refine (v.failsFresh_rangeBounds w).bind fun (first, last) => ?_
  cases s.maxRangeLength with
  | none => exact failsFresh_ok _
  | some limit =>
    show FailsFresh (if limit < Run.inclusiveLength first last then _ else _)
    split
    · exact failsFresh_error (Fault.fresh_complain _)
    · exact failsFresh_ok _

/-- **An operator with one operand** raises fresh faults. -/
theorem UnaryOp.failsFresh_apply (op : UnaryOp) (v : Value) : FailsFresh (op.apply v) := by
  cases op with
  | plus => exact v.failsFresh_plus
  | minus => exact v.failsFresh_minus
  | not => exact failsFresh_ok _
  | group => exact failsFresh_ok _

/-- **An operator with two operands** raises fresh faults. -/
theorem BinaryOp.failsFresh_apply (s : Settings) (op : BinaryOp) (v w : Value) :
    FailsFresh (op.apply s v w) := by
  cases op with
  | add => exact v.failsFresh_add w
  | sub | mul | div | mod => exact Value.failsFresh_arithmetic _ _ v w
  | and | or => exact failsFresh_ok _
  | less | lessEq | eq | notEq | greaterEq | greater => exact failsFresh_compareBy _ v w
  | range => exact s.failsFresh_range v w

/-- **Reading a variable** raises fresh faults. -/
theorem Environment.failsFresh_read (env : Environment) (name : String) :
    FailsFresh (env.read name) := by
  rw [Environment.read]
  split
  · exact failsFresh_error (Fault.fresh_complain _)
  · exact failsFresh_ok _

end ExprLang
