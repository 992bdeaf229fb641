import ExprLang.Environment
import ExprLang.Proofs.Entries.Merging
import Mathlib.Data.Finset.Card
import Mathlib.Data.List.Forall2

/-!
# Contexts and their histories

A host declares names in a context and assigns to them, and at any time it may copy the context and go on
with both.  What a context says afterwards is a matter of its own history alone: of what was written to it,
and before it was copied to the context that it is a copy of (`Context.run_tracks_histories`).

A history is a list of writes, the latest first.  Two things are read off it without looking at any table.
`declared` are the names that were ever declared, and from these it follows which writes succeeded:
declarations always do, and assignments to names declared before.  `written` are the bindings that
were made by writes that did, and a name has the value of the first of them.

Contexts and histories branch in the same way (`Action.apply`), so whatever one write preserves between a
context and its history is preserved by a run (`forall₂_runActions`), and one write preserves `Tracks`.

A run goes on from the state that a write leaves behind, whether or not the write failed.  An assignment that
fails has gone through the table in search of a place and has found none, and so it has changed nothing
(`Table.state_write_of_error`).
-/

namespace ExprLang

/-- The context behind a write, whether or not the write failed. -/
def Context.perform (w : Write) (c : Context) : Context := (c.write w).state

/-! ## Histories -/

/-- The names that are among the initial bindings or were declared, with repetitions. -/
def declared (initial : List (String × Value)) : List Write → List String
  | [] => initial.map Prod.fst
  | .declare name _ :: earlier => name :: declared initial earlier
  | .assign _ _ :: earlier => declared initial earlier

/-- Whether a write succeeds after a history. -/
def Write.Succeeds (initial : List (String × Value)) (earlier : List Write) : Write → Prop
  | .declare _ _ => True
  | .assign name _ => name ∈ declared initial earlier

instance (initial : List (String × Value)) (earlier : List Write) (w : Write) :
    Decidable (w.Succeeds initial earlier) :=
  match w with
  | .declare _ _ => inferInstanceAs (Decidable True)
  | .assign name _ => inferInstanceAs (Decidable (name ∈ declared initial earlier))

/-- The bindings that were made, initially and by the writes that succeeded, the latest first. -/
def written (initial : List (String × Value)) : List Write → List (String × Value)
  | [] => initial.reverse
  | w :: earlier =>
    if w.Succeeds initial earlier then (w.name, w.value) :: written initial earlier
    else written initial earlier

theorem written_of_succeeds {initial : List (String × Value)} {w : Write} {earlier : List Write}
    (h : w.Succeeds initial earlier) :
    written initial (w :: earlier) = (w.name, w.value) :: written initial earlier := if_pos h

theorem written_of_not_succeeds {initial : List (String × Value)} {w : Write} {earlier : List Write}
    (h : ¬ w.Succeeds initial earlier) : written initial (w :: earlier) = written initial earlier := if_neg h

/-- Assignments succeed only for names that have a binding already, so they add none. -/
theorem mem_keys_written_iff {initial : List (String × Value)} {history : List Write} {x : String} :
    x ∈ Entries.keys (written initial history) ↔ x ∈ declared initial history := by
  induction history with
  | nil =>
    show x ∈ initial.reverse.map Prod.fst ↔ x ∈ initial.map Prod.fst
    rw [List.map_reverse, List.mem_reverse]
  | cons w earlier ih =>
    cases w with
    | declare name v =>
      have hsucceeds : (Write.declare name v).Succeeds initial earlier := trivial
      rw [written_of_succeeds hsucceeds]
      show x ∈ name :: Entries.keys (written initial earlier) ↔ x ∈ name :: declared initial earlier
      rw [List.mem_cons, List.mem_cons, ih]
    | assign name v =>
      show _ ↔ x ∈ declared initial earlier
      by_cases hsucceeds : (Write.assign name v).Succeeds initial earlier
      · rw [written_of_succeeds hsucceeds]
        show x ∈ name :: Entries.keys (written initial earlier) ↔ _
        rw [List.mem_cons, ih]
        exact or_iff_right_of_imp fun h => h ▸ hsucceeds
      · rw [written_of_not_succeeds hsucceeds, ih]

/-! ## One write -/

theorem Table.contains_iff_mem_names (t : Table) (x : String) : t.contains x = true ↔ x ∈ t.names := by
  show (Entries.lookup x t.entries).isSome = true ↔ _
  rw [Option.isSome_iff_exists]
  exact Entries.mem_keys_iff.symm

theorem Table.nodup_names (t : Table) : t.names.Nodup := by
  refine List.Pairwise.imp ?_ t.sorted
  rintro x _ hlt rfl
  exact String.lt_irrefl x hlt

theorem Table.eq_of_entries_eq {t u : Table} (h : t.entries = u.entries) : t = u := by
  cases t
  cases u
  cases h
  rfl

/-- An assignment to a table succeeds just if the name is contained. -/
theorem Table.result_write_assign (t : Table) (name : String) (v : Value) :
    (t.write (.assign name v)).result =
      if t.contains name = true then .ok () else .error (.complain (.undeclared name)) := by
  rw [contains, ← Entries.overwrite_found (a := v)]
  rfl

/-- **A write to a table that fails leaves the whole table as it was.** -/
theorem Table.state_write_of_error {t : Table} {w : Write} {f : Fault}
    (h : (t.write w).result = .error f) : (t.write w).state = t := by
  cases w with
  | declare name v => cases h
  | assign name v =>
    rw [result_write_assign] at h
    cases hname : t.contains name with
    | true =>
      rw [if_pos hname] at h
      cases h
    | false => exact eq_of_entries_eq (Entries.overwrite_of_not_contains hname)

namespace Context

/-- **A write that fails leaves the context as it was**, be it that the host refuses it. -/
theorem state_write_of_error {c : Context} {w : Write} {f : Fault}
    (h : (c.write w).result = .error f) : (c.write w).state = c := by
  unfold write at h ⊢
  split
  · rfl
  · rename_i hrefuses
    rw [if_neg hrefuses] at h
    show { c with table := (c.table.write w).state } = c
    rw [Table.state_write_of_error h]

theorem redeclaration_perform (w : Write) (c : Context) :
    (c.perform w).redeclaration = c.redeclaration := by
  unfold perform write
  split <;> rfl

end Context

/-- The bindings of a context are those that its history made. -/
structure Tracks (initial : List (String × Value)) (c : Context) (history : List Write) : Prop where
  redeclaration_eq : c.redeclaration = .overwrites
  lookup_eq : ∀ x, Entries.lookup x c.table.entries = Entries.lookup x (written initial history)

namespace Tracks
variable {initial : List (String × Value)} {c : Context} {history : List Write}

theorem mem_names_iff (h : Tracks initial c history) {x : String} :
    x ∈ c.table.names ↔ x ∈ declared initial history := by
  show x ∈ c.table.entries.keys ↔ _
  rw [Entries.mem_keys_iff, h.lookup_eq, ← Entries.mem_keys_iff, mem_keys_written_iff]

theorem size_eq (h : Tracks initial c history) :
    c.table.size = (declared initial history).toFinset.card := by
  have hnames : c.table.names.toFinset = (declared initial history).toFinset := by
    ext x
    rw [List.mem_toFinset, List.mem_toFinset, h.mem_names_iff]
  rw [← hnames, List.toFinset_card_of_nodup c.table.nodup_names]
  exact (List.length_map _).symm

/-- **Whether a write succeeds can be told from the history.** -/
theorem result_eq (h : Tracks initial c history) (w : Write) : (c.write w).result =
    if w.Succeeds initial history then .ok () else .error (.complain (.undeclared w.name)) := by
  rw [Context.write_of_overwrites h.redeclaration_eq]
  show (c.table.write w).result = _
  cases w with
  | declare name v =>
    have hsucceeds : (Write.declare name v).Succeeds initial history := trivial
    exact (if_pos hsucceeds).symm
  | assign name v =>
    rw [Table.result_write_assign]
    have hiff : c.table.contains name = true ↔ (Write.assign name v).Succeeds initial history :=
      (c.table.contains_iff_mem_names name).trans h.mem_names_iff
    simp only [hiff]
    rfl

theorem exists_assign_iff (h : Tracks initial c history) (x : String) (v : Value) :
    (∃ c', c.assign x v = .ok c') ↔ x ∈ declared initial history := by
  unfold Context.assign Effect.outcome
  rw [h.result_eq]
  by_cases hx : (Write.assign x v).Succeeds initial history
  · rw [if_pos hx]
    exact iff_of_true ⟨_, rfl⟩ hx
  · rw [if_neg hx]
    exact iff_of_false (fun ⟨_, hok⟩ => nomatch hok) hx

/-- What succeeds binds its name and nothing else. -/
theorem lookup_perform (h : Tracks initial c history) {w : Write} (hw : w.Succeeds initial history)
    (x : String) : Entries.lookup x (c.perform w).table.entries =
      if w.name = x then some w.value else Entries.lookup x c.table.entries := by
  rw [Context.perform, Context.write_of_overwrites h.redeclaration_eq]
  cases w with
  | declare name v => exact Entries.lookup_insert name x v c.table.entries
  | assign name v =>
    have hbound : c.table.contains name = true :=
      (c.table.contains_iff_mem_names name).2 (h.mem_names_iff.2 hw)
    exact Entries.lookup_overwrite hbound x

theorem perform_of_not_succeeds (h : Tracks initial c history) {w : Write}
    (hw : ¬ w.Succeeds initial history) : c.perform w = c :=
  Context.state_write_of_error ((h.result_eq w).trans (if_neg hw))

/-- **A write keeps a context in step with its history.** -/
theorem perform (h : Tracks initial c history) (w : Write) :
    Tracks initial (c.perform w) (w :: history) := by
  by_cases hw : w.Succeeds initial history
  · refine ⟨(Context.redeclaration_perform w c).trans h.redeclaration_eq, fun x => ?_⟩
    rw [h.lookup_perform hw, h.lookup_eq, written_of_succeeds hw, Entries.lookup_cons]
  · rw [h.perform_of_not_succeeds hw]
    refine ⟨h.redeclaration_eq, fun x => ?_⟩
    rw [written_of_not_succeeds hw]
    exact h.lookup_eq x

theorem ofList (initial : List (String × Value)) : Tracks initial { table := .ofList initial } [] :=
  ⟨rfl, fun x => Entries.lookup_ofList x initial⟩

end Tracks

/-! ## Runs -/

/-- What a host does next: it writes to one of its contexts or copies one. -/
inductive Action where
  | write (i : ℕ) (w : Write)
  | clone (i : ℕ)

/-- What becomes of the branches, for one meaning of what a write does to a branch.  A copy comes last. -/
def Action.apply {α : Type} (perform : Write → α → α) : Action → List α → List α
  | write i w, branches => branches.modify i (perform w)
  | clone i, branches => branches ++ branches[i]?.toList

/-- The branches after a run, from a single one. -/
def runActions {α : Type} (perform : Write → α → α) (actions : List Action) (first : α) : List α :=
  actions.foldl (fun branches action => action.apply perform branches) [first]

section
variable {α β : Type} {R : α → β → Prop}
  {perform : Write → α → α} {perform' : Write → β → β}

/-- **What each write preserves between branches is preserved by every action.** -/
theorem Action.forall₂_apply (hperform : ∀ w a b, R a b → R (perform w a) (perform' w b))
    {as : List α} {bs : List β} (h : List.Forall₂ R as bs) (action : Action) :
    List.Forall₂ R (action.apply perform as) (action.apply perform' bs) := by
  cases action with
  | write i w =>
    show List.Forall₂ R (as.modify i (perform w)) (bs.modify i (perform' w))
    induction h generalizing i with
    | nil =>
      rw [List.modify_nil, List.modify_nil]
      exact .nil
    | cons hab hrest ih =>
      cases i with
      | zero =>
        rw [List.modify_zero_cons, List.modify_zero_cons]
        exact .cons (hperform w _ _ hab) hrest
      | succ i =>
        rw [List.modify_succ_cons, List.modify_succ_cons]
        exact .cons hab (ih i)
  | clone i =>
    have hcopy : List.Forall₂ R as[i]?.toList bs[i]?.toList := by
      induction h generalizing i with
      | nil => exact .nil
      | cons hab _ ih =>
        cases i with
        | zero => exact .cons hab .nil
        | succ i => exact ih i
    exact List.rel_append h hcopy

theorem forall₂_runActions (hperform : ∀ w a b, R a b → R (perform w a) (perform' w b)) {a : α} {b : β}
    (h : R a b) (actions : List Action) :
    List.Forall₂ R (runActions perform actions a) (runActions perform' actions b) := by
  unfold runActions
  have hfirst : List.Forall₂ R [a] [b] := .cons h .nil
  generalize [a] = as at hfirst ⊢
  generalize [b] = bs at hfirst ⊢
  induction actions generalizing as bs with
  | nil => exact hfirst
  | cons action rest ih => exact ih _ _ (action.forall₂_apply hperform hfirst)

/-- An action leaves every branch alone but the one that it writes to. -/
theorem Action.getElem?_apply {action : Action} {branches : List α} {i : ℕ} {a : α}
    (ha : branches[i]? = some a) (haction : ∀ w, action ≠ .write i w) :
    (action.apply perform branches)[i]? = some a := by
  cases action with
  | write j w =>
    have hne : j ≠ i := fun h => haction w (h ▸ rfl)
    show (branches.modify j (perform w))[i]? = _
    rw [List.getElem?_modify, ha]
    exact congrArg some (if_neg hne)
  | clone j =>
    obtain ⟨hi, -⟩ := List.getElem?_eq_some_iff.1 ha
    show (branches ++ branches[j]?.toList)[i]? = _
    rw [List.getElem?_append_left hi, ha]

end

/-! ## What contexts say -/

namespace Context

/-- **Contexts over tables are finite maps**, whatever is done to them and to their copies.  Each context
of a run has its own history, and

* a name has the value of the latest write to it that succeeded, or of the last initial binding of it, and is
  undefined if there is none;
* the names that it contains are those that it lists, and those that are initial or were declared;
* its size is the number of these names, each counted once;
* a declaration succeeds, an assignment succeeds just if the name is contained, and the state behind a write
  that fails is the one before it, table and all;
* what is done to other contexts, or copying, does not change it. -/
theorem run_tracks_histories (initial : List (String × Value)) (actions : List Action) :
    let contexts := runActions perform actions { table := .ofList initial }
    let histories := runActions List.cons actions []
    contexts.length = histories.length ∧
    ∀ (i : ℕ) (c : Context) (history : List Write),
      contexts[i]? = some c → histories[i]? = some history →
      (∀ x, c.environment x = (Entries.lookup x (written initial history)).getD .undefined) ∧
      (∀ x, (c.table.contains x = true ↔ x ∈ c.table.names) ∧
        (x ∈ c.table.names ↔ x ∈ declared initial history)) ∧
      c.table.size = (declared initial history).toFinset.card ∧
      (∀ w : Write, (c.write w).result =
        if w.Succeeds initial history then .ok () else .error (.complain (.undeclared w.name))) ∧
      (∀ x v, (∃ c', c.assign x v = .ok c') ↔ c.table.contains x = true) ∧
      (∀ w f, (c.write w).result = .error f → (c.write w).state = c) ∧
      (∀ w, ((Action.write i w).apply perform contexts)[i]? = some (c.write w).state) ∧
      ∀ action : Action, (∀ w, action ≠ .write i w) → (action.apply perform contexts)[i]? = some c := by
  intro contexts histories
  have hall : List.Forall₂ (Tracks initial) contexts histories :=
    forall₂_runActions (fun w _ _ h => h.perform w) (.ofList initial) actions
  refine ⟨hall.length_eq, fun i c history hc hhistory => ?_⟩
  have htracks : Tracks initial c history := by
    obtain ⟨hi, rfl⟩ := List.getElem?_eq_some_iff.1 hc
    obtain ⟨hi', rfl⟩ := List.getElem?_eq_some_iff.1 hhistory
    exact hall.get hi hi'
  refine ⟨fun x => ?_, fun x => ⟨c.table.contains_iff_mem_names x, htracks.mem_names_iff⟩,
    htracks.size_eq, htracks.result_eq, fun x v => ?_, fun w f => state_write_of_error,
    fun w => ?_, fun action => Action.getElem?_apply hc⟩
  · exact congrArg (Option.getD · .undefined) (htracks.lookup_eq x)
  · rw [c.table.contains_iff_mem_names, htracks.mem_names_iff]
    exact htracks.exists_assign_iff x v
  · show (contexts.modify i (perform w))[i]? = _
    rw [List.getElem?_modify_eq, hc]
    rfl

/-- A context and its copy after an assignment that fails before the copy and two writes behind it.  Another
assignment to the copy fails, and leaves the copy behind. -/
theorem run_tracks_histories_of_copy :
    let initial : List (String × Value) := [("x", .null), ("x", .boolean true)]
    let actions : List Action := [.write 0 (.assign "y" .null), .clone 0,
      .write 1 (.assign "x" (.boolean false)), .write 0 (.declare "y" .undefined)]
    let w := Write.assign "y" .null
    ∃ c c', runActions perform actions { table := .ofList initial } = [c, c'] ∧
      c.environment "x" = .boolean true ∧ c'.environment "x" = .boolean false ∧
      c.table.size = 2 ∧ c'.table.size = 1 ∧
      (c'.write w).result = .error (.complain (.undeclared "y")) ∧ (c'.write w).state = c' := by
  intro initial actions w
  obtain ⟨-, hcontexts⟩ := run_tracks_histories initial actions
  obtain ⟨hx, -, hsize, -⟩ := hcontexts 0 _ _ rfl rfl
  obtain ⟨hx', -, hsize', hresult, -, hstate, -⟩ := hcontexts 1 _ _ rfl rfl
  have hfails : ¬ w.Succeeds initial [.assign "x" (.boolean false), .assign "y" .null] := by decide
  have hfault := (hresult w).trans (if_neg hfails)
  exact ⟨_, _, rfl, hx "x", hx' "x", hsize, hsize', hfault, hstate w _ hfault⟩

end Context
end ExprLang
