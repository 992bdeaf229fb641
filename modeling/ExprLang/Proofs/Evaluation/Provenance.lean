import ExprLang.Proofs.Evaluation.FreshFault
import ExprLang.Proofs.Evaluation.Sites
import ExprLang.Proofs.Offers

/-!
# Where faults come from

Evaluation stops at the first fault, and every node that the fault passes on its way out tries to
give it a position.  What arrives at the root can be said without following it.

* A node has a fault of its *own* if its children have values and what it does with them fails: a
  reference that reads nothing, an operator that refuses its operands, a subscript without such an
  element.  Own faults are fresh (`fresh_of_ownFault?`), so nothing about the position is decided
  yet.
* Each node above locates the fault, and only the first known position counts.  So a site reports
  its own fault at the nearest known position of its trail (`Site.report?_eq_some_iff`).
* Evaluation fails as the first site does that reports anything (`fault?_evaluate`).

The third point is an induction with a case for each kind of node.  `Reports` is what it carries: a
part of the evaluation, below given nodes, fails as the first of a list of sites.  Sequencing two
parts appends their lists (`Reports.bind`), the node adds itself at the end (`Reports.own`), and
locating an outcome moves it below the nodes above (`Reports.located`); each case is put together
from these.

The list may be that of the sites of another evaluation, under other settings.  What is at stake is
only that the indices of subscripts have the same scopes, so it is enough that the other settings
extend those in force (`reports_evaluate`).
-/

namespace ExprLang

/-- The fault of an outcome, if it is one. -/
def Outcome.fault? {α : Type} : Outcome α → Option Fault
  | .ok _ => none
  | .error f => some f

theorem Outcome.fault?_eq_some_iff {α : Type} {o : Outcome α} {f : Fault} :
    o.fault? = some f ↔ o = .error f := by
  cases o with
  | ok a => exact iff_of_false nofun nofun
  | error g => exact ⟨fun h => congrArg Except.error (Option.some.inj h), fun h => by cases h; rfl⟩

theorem Outcome.fault?_located (p : Position) (o : Outcome Value) :
    (Outcome.located p o).fault? = o.fault?.map fun f => f.locate p := by
  cases o with
  | ok v => rfl
  | error f => rfl

/-- The fault located at each of several positions, one after the other. -/
def Fault.locateAll (f : Fault) (ps : List Position) : Fault := ps.foldl Fault.locate f

namespace Fault

theorem locateAll_eq_annotateAll (f : Fault) (ps : List Position) :
    f.locateAll ps = f.annotateAll (ps.map .position) := by
  rw [annotateAll, List.foldl_map]
  rfl

/-- **A fault without a position gets the first one that is known.** -/
theorem locateAll_of_position_eq_none {f : Fault} (h : f.position = none) (ps : List Position) :
    f.locateAll ps = { cause := f.cause, position := ps.find? Position.known } := by
  rw [locateAll_eq_annotateAll]
  refine ext_of ?_ ?_
  · rw [annotateAll_cause, Offer.complaints_map_position]
    rfl
  · rw [annotateAll_position, Offer.positions_map_position, h, Option.none_or]

end Fault

/-! ## Own faults -/

namespace Expr

/-- The fault that a node raises itself: its children have values, and what it does with them
fails. -/
def ownFault? (s : Settings) (env : Environment) : Expr → Option Fault
  | literal _ _ | array _ _ | map _ _ => none
  | reference name _ => (env.read name).fault?
  | unary op operand _ => do
    let v ← (operand.evaluate s env).toOption
    (op.apply v).fault?
  | subscript indexable index _ => do
    let v ← (indexable.evaluate s env).toOption
    let i ← (index.evaluate s (env.withLastIndex v)).toOption
    (v.index i).fault?
  | binary left op right _ => do
    let v ← (left.evaluate s env).toOption
    let w ← (right.evaluate s env).toOption
    (op.apply s v w).fault?

/-- **Own faults are fresh.** -/
theorem fresh_of_ownFault? {s : Settings} {env : Environment} {e : Expr} {f : Fault}
    (h : e.ownFault? s env = some f) : f.Fresh := by
  cases e with
  | literal v p => cases h
  | array elements p => cases h
  | map entries p => cases h
  | reference name p => exact env.failsFresh_read name f (Outcome.fault?_eq_some_iff.1 h)
  | unary op operand p =>
    obtain ⟨v, _, h⟩ := Option.bind_eq_some_iff.1 h
    exact op.failsFresh_apply v f (Outcome.fault?_eq_some_iff.1 h)
  | subscript indexable index p =>
    obtain ⟨v, _, h⟩ := Option.bind_eq_some_iff.1 h
    obtain ⟨i, _, h⟩ := Option.bind_eq_some_iff.1 h
    exact v.failsFresh_index i f (Outcome.fault?_eq_some_iff.1 h)
  | binary left op right p =>
    obtain ⟨v, _, h⟩ := Option.bind_eq_some_iff.1 h
    obtain ⟨w, _, h⟩ := Option.bind_eq_some_iff.1 h
    exact op.failsFresh_apply s v w f (Outcome.fault?_eq_some_iff.1 h)

end Expr

namespace Site

/-- The fault that the node of a site raises itself in its scope. -/
def ownFault? (s : Settings) (site : Site) : Option Fault :=
  site.scope.bind fun env => site.node.ownFault? s env

/-- That fault, as it comes out at the root. -/
def report? (s : Settings) (site : Site) : Option Fault :=
  (site.ownFault? s).map fun f => f.locateAll site.trail

variable {s : Settings} {site : Site}

/-- **What comes out at the root** is the own fault at the nearest known position. -/
theorem report?_eq_some_iff {f : Fault} : site.report? s = some f ↔
    ∃ g, site.ownFault? s = some g ∧
      f = { cause := g.cause, position := site.trail.find? Position.known } := by
  rw [report?, Option.map_eq_some_iff]
  refine exists_congr fun g => and_congr_right fun h => ?_
  obtain ⟨env, _, h⟩ := Option.bind_eq_some_iff.1 h
  rw [Fault.locateAll_of_position_eq_none (Expr.fresh_of_ownFault? h).position_eq]
  exact eq_comm

end Site

/-! ## Faults on their way out -/

/-- The outcome of a part below some nodes fails just as the first of its sites that does: what
becomes of its fault at these nodes is what that site reports. -/
def Reports {α : Type} (s : Settings) (above : List Expr) (sites : List Site) (o : Outcome α) :
    Prop :=
  o.fault?.map (fun f => f.locateAll (above.map Expr.position)) = sites.findSome? (Site.report? s)

namespace Reports
variable {α β : Type} {s : Settings} {above : List Expr}

theorem ok (a : α) : Reports s above [] (.ok a : Outcome α) := rfl

/-- The second step matters only if the first one has a result. -/
theorem bind {sites sites' : List Site} {o : Outcome α} {k : α → Outcome β}
    (h : Reports s above sites o) (h' : ∀ a, o = .ok a → Reports s above sites' (k a)) :
    Reports s above (sites ++ sites') (o >>= k) := by
  unfold Reports at h h' ⊢
  rw [List.findSome?_append, ← h]
  cases o with
  | ok a => exact h' a rfl
  | error f => rfl

theorem bind_pure {sites : List Site} {o : Outcome α} (h : Reports s above sites o) (k : α → β) :
    Reports s above sites (o >>= fun a => .ok (k a)) := by
  have hbind := h.bind fun a _ => ok (k a)
  rwa [List.append_nil] at hbind

/-- The node itself fails as its own fault says. -/
theorem own {e : Expr} {env : Environment} {o : Outcome α} (h : e.ownFault? s env = o.fault?) :
    Reports s (e :: above) [⟨e, above, some env⟩] o := by
  unfold Reports
  rw [← h, List.findSome?_singleton]
  rfl

/-- What a node gives is located there, and then it is on its way below the nodes above. -/
theorem located {e : Expr} {sites : List Site} {o : Outcome Value}
    (h : Reports s (e :: above) sites o) :
    Reports s above sites (Outcome.located e.position o) := by
  unfold Reports at h ⊢
  rw [← h, Outcome.fault?_located, Option.map_map]
  rfl

end Reports

namespace Expr

section
variable {s t : Settings} {above : List Expr} {env : Environment}

theorem reports_elements {elements : List Expr}
    (h : ∀ e ∈ elements, Reports t above (e.sites s above (some env)) (e.evaluate t env)) :
    Reports t above (elementSites s elements above (some env))
      (evaluateElements t elements env) := by
  induction elements with
  | nil => exact .ok []
  | cons e rest ih =>
    have hhead := h e List.mem_cons_self
    have htail := ih fun c hc => h c (List.mem_cons_of_mem _ hc)
    rw [elementSites, evaluateElements]
    exact hhead.bind fun v _ => htail.bind_pure _

theorem reports_entries {entries : List (String × Expr)}
    (h : ∀ e ∈ entries, Reports t above (e.2.sites s above (some env)) (e.2.evaluate t env)) :
    Reports t above (entrySites s entries above (some env))
      (evaluateEntries t entries env) := by
  induction entries with
  | nil => exact .ok []
  | cons e rest ih =>
    have hhead := h e List.mem_cons_self
    have htail := ih fun c hc => h c (List.mem_cons_of_mem _ hc)
    rw [entrySites, evaluateEntries]
    exact hhead.bind fun v _ => htail.bind_pure _

/-- **Evaluation fails just as the first of the sites that does.**  The sites may be those of
evaluation under settings that extend those in force. -/
theorem reports_evaluate (hst : s.Extends t) (e : Expr) (above : List Expr) (env : Environment) :
    Reports t above (e.sites s above (some env)) (e.evaluate t env) := by
  induction e using Expr.induction generalizing above env with
  | literal v p =>
    rw [sites, evaluate]
    exact (Reports.own rfl).located
  | reference name p =>
    rw [sites, evaluate]
    exact (Reports.own rfl).located
  | array elements p ih =>
    rw [sites, evaluate]
    refine Reports.located (e := array elements p) ?_
    have helements := reports_elements fun e he => ih e he (array elements p :: above) env
    exact helements.bind fun items _ => .own rfl
  | map entries p ih =>
    rw [sites, evaluate]
    refine Reports.located (e := map entries p) ?_
    have hentries := reports_entries fun e he => ih e he (map entries p :: above) env
    exact hentries.bind fun bindings _ => .own rfl
  | unary op operand p ih =>
    rw [sites, evaluate]
    refine Reports.located (e := unary op operand p) ?_
    refine (ih _ env).bind fun v hv => .own ?_
    rw [ownFault?, hv]
    rfl
  | subscript indexable index p ih ih' =>
    rw [sites, evaluate, List.append_assoc]
    refine Reports.located (e := subscript indexable index p) ?_
    refine (ih _ env).bind fun v hv => ?_
    rw [indexScope_of_ok (hst indexable env v hv)]
    refine (ih' _ _).bind fun i hi => .own ?_
    rw [ownFault?, hv]
    show (index.evaluate t (env.withLastIndex v)).toOption.bind _ = _
    rw [hi]
    rfl
  | binary left op right p ih ih' =>
    rw [sites, evaluate, List.append_assoc]
    refine Reports.located (e := binary left op right p) ?_
    refine (ih _ env).bind fun v hv => ?_
    refine (ih' _ env).bind fun w hw => .own ?_
    rw [ownFault?, hv, hw]
    rfl

end

variable {s : Settings} {e : Expr} {env : Environment} {f : Fault}

/-- **An evaluation fails as the first site with an own fault reports.** -/
theorem fault?_evaluate (s : Settings) (e : Expr) (env : Environment) :
    (e.evaluate s env).fault? = (e.sites s [] (some env)).findSome? (Site.report? s) := by
  have hreports := reports_evaluate (.refl s) e [] env
  rw [← hreports]
  exact Option.map_id_apply.symm

/-- A node that has a value has no fault of its own. -/
theorem ownFault?_of_evaluate_eq_ok {v : Value} (h : e.evaluate s env = .ok v) :
    e.ownFault? s env = none := by
  have hsites := fault?_evaluate s e env
  rw [h] at hsites
  have hroot := List.findSome?_eq_none_iff.1 hsites.symm _ (root_mem_sites e)
  exact Option.map_eq_none_iff.1 hroot

/-- A fault is reported by one of the sites. -/
theorem exists_report?_of_evaluate_eq_error (h : e.evaluate s env = .error f) :
    ∃ site ∈ e.sites s [] (some env), site.report? s = some f := by
  rw [← Outcome.fault?_eq_some_iff, fault?_evaluate] at h
  exact List.exists_of_findSome?_eq_some h

/-- **Evaluation is strict, and faults come from the first node that raises one.**  The sites are the
nodes in postorder.  There is a value just if all of them succeed.  If there is none, the fault is
that of the first site with a fault of its own, with the same cause, at the nearest
position that is known on the way from the node up to the root, or at none if there is no such
position. -/
theorem exists_ok_iff_succeeds_and_eq_error_iff (s : Settings) (e : Expr) (env : Environment) :
    (e.sites s [] (some env)).map Site.node = e.postorder ∧
    ((∃ v, e.evaluate s env = .ok v) ↔ ∀ site ∈ e.sites s [] (some env), site.Succeeds s) ∧
    ∀ f, e.evaluate s env = .error f ↔
      ∃ before site after g, e.sites s [] (some env) = before ++ site :: after ∧
        (∀ earlier ∈ before, earlier.ownFault? s = none) ∧ site.ownFault? s = some g ∧
        f = { cause := g.cause, position := site.trail.find? Position.known } := by
  refine ⟨map_node_sites e, ⟨?_, fun h => ?_⟩, fun f => ?_⟩
  · rintro ⟨v, hv⟩ site hsite
    exact succeeds_of_mem_sites (.refl s) hv hsite
  · -- the root is a site, too
    obtain ⟨env', v, hscope, hv⟩ := h _ (root_mem_sites e)
    cases hscope
    exact ⟨v, hv⟩
  · rw [← Outcome.fault?_eq_some_iff, fault?_evaluate, List.findSome?_eq_some_iff]
    have hnone : ∀ site : Site, site.report? s = none ↔ site.ownFault? s = none :=
      fun site => Option.map_eq_none_iff
    simp only [hnone, Site.report?_eq_some_iff]
    constructor
    · rintro ⟨before, site, after, hsites, ⟨g, hg, hf⟩, hbefore⟩
      exact ⟨before, site, after, g, hsites, hbefore, hg, hf⟩
    · rintro ⟨before, site, after, g, hsites, hbefore, hg, hf⟩
      exact ⟨before, site, after, hsites, ⟨g, hg, hf⟩, hbefore⟩

-- the negation fails first, at an unknown position, and the sum above it has a known one
example : (binary (unary .minus (array [] ⟨1, 2⟩) .unknown) .add (reference lastIndexName ⟨1, 5⟩)
      ⟨1, 4⟩).evaluate {} .empty =
    .error { cause := .evaluation (.unary .minus .array), position := some ⟨1, 4⟩ } := rfl

end Expr

/-! ## The classes of faults -/

theorem Cause.isEvaluation_iff {c : Cause} :
    c.isEvaluation = true ↔ c.className ∈ ["evaluation", "index", "index_out_of_bounds"] := by
  cases c <;> simp [isEvaluation, isIndex, className]

namespace Expr

/-- **Evaluation raises faults of evaluation only**, those of subscripts included.  A conversion or
dereference that fails inside an operator never comes out as such. -/
theorem isEvaluation_of_evaluate_eq_error {s : Settings} {e : Expr} {env : Environment} {f : Fault}
    (h : e.evaluate s env = .error f) : f.cause.isEvaluation = true ∧
      f.cause.className ∈ ["evaluation", "index", "index_out_of_bounds"] := by
  obtain ⟨site, _, hsite⟩ := exists_report?_of_evaluate_eq_error h
  obtain ⟨g, hg, rfl⟩ := Site.report?_eq_some_iff.1 hsite
  obtain ⟨env', _, hg⟩ := Option.bind_eq_some_iff.1 hg
  have hclass : g.cause.isEvaluation = true := (fresh_of_ownFault? hg).isEvaluation
  exact ⟨hclass, Cause.isEvaluation_iff.1 hclass⟩

/-- A map that is asked for the number it converts to, as the bound of an open range. -/
theorem isEvaluation_open_range_of_map :
    let env := Environment.empty.bind "m" (.map [])
    let index := binary (reference "m" ⟨1, 5⟩) .range (reference lastIndexName ⟨1, 7⟩) ⟨1, 6⟩
    let e := subscript (array [literal .null ⟨1, 2⟩] ⟨1, 1⟩) index ⟨1, 4⟩
    let f : Fault :=
      { cause := .evaluation (.binary .range .map .number), position := some ⟨1, 6⟩ }
    e.evaluate {} env = .error f ∧ f.cause.isEvaluation = true ∧
      f.cause.className ∈ ["evaluation", "index", "index_out_of_bounds"] := by
  intro env index e f
  have h : e.evaluate {} env = .error f := rfl
  exact ⟨h, isEvaluation_of_evaluate_eq_error h⟩

end Expr
end ExprLang
