import ExprLang.Proofs.Evaluation.Provenance
import ExprLang.Proofs.Value.Runs

/-!
# A limit on ranges is a filter

Settings may say how long a range can be.  A limit makes evaluation stop where it would have gone on,
and does nothing else: what has a value under a limit has the same value without it, and what has a
value without it has one under the limit just if no range in it is too long.

The ranges meant are those of the evaluation *without* the limit, each between the bounds that it
gets there (`Site.bounds?`).  Both evaluations come to the same sites in the same scopes as long as
the limited one goes on, and its fault is that of the first site at which it does not.  That site
succeeds without the limit, so it must be a range that is too long
(`exists_bounds?_of_ownFault?`).

A length is compared with the limit before the range is built, and it is capped
(`Run.inclusiveLength`).  Below the cap it is the number of integers in the range
(`Run.lt_inclusiveLength_iff`, `Run.length_inclusive`), so the cap matters only for a limit that
is as great as the cap itself, and then all ranges are allowed.
-/

namespace ExprLang

/-! ## Lengths of ranges -/

namespace Run

/-- A limit below the cap is exceeded just by the ranges that have more elements. -/
theorem lt_inclusiveLength_iff {limit : Nat} (h : limit < lengthCap) (first last : Int) :
    limit < inclusiveLength first last ↔ limit < (inclusive first last).length := by
  rw [inclusiveLength, length_inclusive, Nat.lt_min]
  exact and_iff_left h

end Run

namespace Settings

/-- Ranges may have at most so many elements. -/
def limited (limit : Nat) : Settings := { maxRangeLength := some limit }

/-- Ranges of any length. -/
def unlimited : Settings := {}

section
variable {v w u : Value} {first last : Int} {limit : Nat}

theorem range_unlimited (h : v.rangeBounds w = .ok (first, last)) :
    unlimited.range v w = .ok (.range (Run.inclusive first last)) := by
  rw [range, h]
  rfl

theorem range_limited (h : v.rangeBounds w = .ok (first, last)) :
    (limited limit).range v w =
      if limit < Run.inclusiveLength first last then
        .error (.complain (.rangeTooLong first last (Run.inclusiveLength first last) limit))
      else .ok (.range (Run.inclusive first last)) := by
  rw [range, h]
  rfl

/-- Without bounds there is nothing to limit. -/
theorem range_of_rangeBounds_eq_error {f : Fault} (h : v.rangeBounds w = .error f) (s : Settings) :
    s.range v w = .error f := by
  rw [range, h]
  rfl

/-- **A limit lets the short ranges through**, and no others. -/
theorem range_limited_eq_ok_iff : (limited limit).range v w = .ok u ↔
    unlimited.range v w = .ok u ∧
      ∃ first last, v.rangeBounds w = .ok (first, last) ∧
        Run.inclusiveLength first last ≤ limit := by
  cases h : v.rangeBounds w with
  | error f =>
    rw [range_of_rangeBounds_eq_error h (limited limit), range_of_rangeBounds_eq_error h unlimited]
    exact iff_of_false nofun fun hu => nomatch hu.1
  | ok bounds =>
    obtain ⟨first, last⟩ := bounds
    rw [range_unlimited h, range_limited h]
    by_cases hlong : limit < Run.inclusiveLength first last
    · rw [if_pos hlong]
      refine iff_of_false nofun ?_
      rintro ⟨_, _, _, ⟨⟩, hshort⟩
      omega
    · rw [if_neg hlong]
      exact (and_iff_left ⟨first, last, rfl, Nat.not_lt.1 hlong⟩).symm

/-- What is not let through is a range that is too long, or has no bounds. -/
theorem of_range_limited_eq_error {f : Fault} (h : (limited limit).range v w = .error f)
    (hu : unlimited.range v w = .ok u) :
    ∃ first last, v.rangeBounds w = .ok (first, last) ∧
      limit < Run.inclusiveLength first last ∧
      f = .complain (.rangeTooLong first last (Run.inclusiveLength first last) limit) := by
  cases hbounds : v.rangeBounds w with
  | error g =>
    rw [range_of_rangeBounds_eq_error hbounds] at hu
    cases hu
  | ok bounds =>
    obtain ⟨first, last⟩ := bounds
    rw [range_limited hbounds] at h
    split at h
    · rename_i hlong
      exact ⟨first, last, rfl, hlong, (Except.error.inj h).symm⟩
    · cases h

end

end Settings

/-! ## Evaluation under settings that allow more -/

namespace Settings

/-- **Settings that allow every range that others allow extend these.** -/
theorem extends_of_range {s t : Settings}
    (h : ∀ v w, Outcome.Extends (s.range v w) (t.range v w)) : s.Extends t := by
  intro e
  induction e using Expr.induction_on_children with
  | node e ih =>
    intro env
    have hop : ∀ op, e.binaryOp? = some op →
        ∀ v w, Outcome.Extends (op.apply s v w) (op.apply t v w) := by
      intro op _ v w
      by_cases hrange : op = .range
      · subst hrange
        exact h v w
      · rw [Expr.apply_of_ne_range hrange s t]
        exact .refl _
    refine Expr.extends_node (fun _ _ _ => .refl _) hop ?_ ?_
    · rintro indexable index p rfl v
      exact (ih index (by simp [Expr.children]) _).bind fun i => .refl _
    · exact fun c hc => ih c (Expr.mem_children_of_mem_unindexedChildren hc) env

theorem unlimited_extends_limited (limit : Nat) : unlimited.Extends (limited limit) :=
  extends_of_range fun _ _ _ h => (range_limited_eq_ok_iff.1 h).1

theorem limited_extends_limited {limit limit' : Nat} (hle : limit ≤ limit') :
    (limited limit').Extends (limited limit) := by
  refine extends_of_range fun v w u h => ?_
  obtain ⟨hu, first, last, hbounds, hlength⟩ := range_limited_eq_ok_iff.1 h
  exact range_limited_eq_ok_iff.2 ⟨hu, first, last, hbounds, Nat.le_trans hlength hle⟩

end Settings

/-! ## Bounds of ranges -/

/-- The bounds of a range, if it is one and gets them. -/
def Expr.bounds? (s : Settings) (env : Environment) : Expr → Option (Int × Int)
  | binary left .range right _ => do
    let v ← (left.evaluate s env).toOption
    let w ← (right.evaluate s env).toOption
    (v.rangeBounds w).toOption
  | _ => none

/-- The bounds of the range at a site. -/
def Site.bounds? (s : Settings) (site : Site) : Option (Int × Int) :=
  site.scope.bind fun env => site.node.bounds? s env

namespace Expr

section
variable {s t : Settings} {e : Expr} {env : Environment}

theorem bounds?_range {left right : Expr} {p : Position} {v w : Value}
    (hleft : left.evaluate s env = .ok v) (hright : right.evaluate s env = .ok w) :
    (binary left .range right p).bounds? s env = (v.rangeBounds w).toOption := by
  rw [bounds?, hleft]
  show (right.evaluate s env).toOption.bind (fun w => (v.rangeBounds w).toOption) = _
  rw [hright]
  rfl

/-- Other operations than ranges fail alike under settings that extend those in force. -/
theorem ownFault?_of_ne_range (hst : s.Extends t) (he : e.binaryOp? ≠ some .range) {f : Fault}
    (h : e.ownFault? t env = some f) : e.ownFault? s env = some f := by
  cases e with
  | literal v p => cases h
  | array elements p => cases h
  | map entries p => cases h
  | reference name p => exact h
  | unary op operand p =>
    obtain ⟨v, hv, h⟩ := Option.bind_eq_some_iff.1 h
    exact Option.bind_eq_some_iff.2 ⟨v, (hst operand env).toOption_eq_some hv, h⟩
  | subscript indexable index p =>
    obtain ⟨v, hv, h⟩ := Option.bind_eq_some_iff.1 h
    obtain ⟨i, hi, h⟩ := Option.bind_eq_some_iff.1 h
    exact Option.bind_eq_some_iff.2 ⟨v, (hst indexable env).toOption_eq_some hv,
      Option.bind_eq_some_iff.2 ⟨i, (hst index _).toOption_eq_some hi, h⟩⟩
  | binary left op right p =>
    obtain ⟨v, hv, h⟩ := Option.bind_eq_some_iff.1 h
    obtain ⟨w, hw, h⟩ := Option.bind_eq_some_iff.1 h
    have hop : op ≠ .range := fun hop => he (congrArg some hop)
    rw [apply_of_ne_range hop t s] at h
    exact Option.bind_eq_some_iff.2 ⟨v, (hst left env).toOption_eq_some hv,
      Option.bind_eq_some_iff.2 ⟨w, (hst right env).toOption_eq_some hw, h⟩⟩

end

section
variable {limit : Nat} {e : Expr} {env : Environment}

/-- A range that has a value under a limit is short. -/
theorem exists_bounds?_of_evaluate_limited (he : e.binaryOp? = some .range) {u : Value}
    (h : e.evaluate (.limited limit) env = .ok u) :
    ∃ first last, e.bounds? .unlimited env = some (first, last) ∧
      Run.inclusiveLength first last ≤ limit := by
  cases e with
  | binary left op right p =>
    cases he
    rw [evaluate] at h
    obtain ⟨_, h, _⟩ := Outcome.located_eq_ok_iff.1 h
    obtain ⟨v, hv, h⟩ := Outcome.bind_eq_ok_iff.1 h
    obtain ⟨w, hw, h⟩ := Outcome.bind_eq_ok_iff.1 h
    obtain ⟨_, first, last, hbounds, hlength⟩ := Settings.range_limited_eq_ok_iff.1 h
    have hext := Settings.unlimited_extends_limited limit
    refine ⟨first, last, ?_, hlength⟩
    rw [bounds?_range (hext left env v hv) (hext right env w hw), hbounds]
    rfl
  | _ => cases he

/-- **A node that has a value fails under a limit only as a range that is too long.** -/
theorem exists_bounds?_of_ownFault? {u : Value} (hu : e.evaluate .unlimited env = .ok u)
    {g : Fault} (h : e.ownFault? (.limited limit) env = some g) :
    e.binaryOp? = some .range ∧ ∃ first last, e.bounds? .unlimited env = some (first, last) ∧
      limit < Run.inclusiveLength first last ∧
      g = .complain (.rangeTooLong first last (Run.inclusiveLength first last) limit) := by
  have hext := Settings.unlimited_extends_limited limit
  by_cases he : e.binaryOp? = some .range
  · refine ⟨he, ?_⟩
    cases e with
    | binary left op right p =>
      cases he
      obtain ⟨v, hv, h⟩ := Option.bind_eq_some_iff.1 h
      obtain ⟨w, hw, h⟩ := Option.bind_eq_some_iff.1 h
      have hleft := hext left env v (Outcome.toOption_eq_some_iff.1 hv)
      have hright := hext right env w (Outcome.toOption_eq_some_iff.1 hw)
      -- without the limit the range is built
      rw [evaluate, hleft, hright] at hu
      obtain ⟨r, hr, _⟩ := Outcome.located_eq_ok_iff.1 hu
      obtain ⟨first, last, hbounds, hlength, hg⟩ :=
        Settings.of_range_limited_eq_error (Outcome.fault?_eq_some_iff.1 h) hr
      refine ⟨first, last, ?_, hlength, hg⟩
      rw [bounds?_range hleft hright, hbounds]
      rfl
    | _ => cases he
  · have hown := ownFault?_of_ne_range hext he h
    rw [ownFault?_of_evaluate_eq_ok hu] at hown
    cases hown

end

/-! ## The filter -/

section
variable {limit : Nat} {e : Expr} {env : Environment}

/-- **A fault that only a limit brings about** is that of a range which is too long. -/
theorem exists_site_of_evaluate_limited_eq_error {v : Value} {f : Fault}
    (hv : e.evaluate .unlimited env = .ok v) (hf : e.evaluate (.limited limit) env = .error f) :
    ∃ site ∈ e.sites .unlimited [] (some env), site.node.binaryOp? = some .range ∧
      ∃ first last, site.bounds? .unlimited = some (first, last) ∧
        limit < Run.inclusiveLength first last ∧
        f = { cause := .evaluation
                (.rangeTooLong first last (Run.inclusiveLength first last) limit),
              position := site.trail.find? Position.known } := by
  have hreports := reports_evaluate (Settings.unlimited_extends_limited limit) e [] env
  rw [hf] at hreports
  obtain ⟨site, hsite, hreport⟩ := List.exists_of_findSome?_eq_some hreports.symm
  obtain ⟨g, hg, hfg⟩ := Site.report?_eq_some_iff.1 hreport
  obtain ⟨env', hscope, hg⟩ := Option.bind_eq_some_iff.1 hg
  obtain ⟨env'', u, hscope', hu⟩ := succeeds_of_mem_sites (.refl _) hv hsite
  cases hscope.symm.trans hscope'
  obtain ⟨hrange, first, last, hbounds, hlength, rfl⟩ := exists_bounds?_of_ownFault? hu hg
  refine ⟨site, hsite, hrange, first, last, ?_, hlength, hfg⟩
  rw [Site.bounds?, hscope]
  exact hbounds

/-- What has a value under a limit has only short ranges. -/
theorem exists_bounds?_of_mem_sites {v : Value} (h : e.evaluate (.limited limit) env = .ok v)
    {site : Site} (hsite : site ∈ e.sites .unlimited [] (some env))
    (hrange : site.node.binaryOp? = some .range) :
    ∃ first last, site.bounds? .unlimited = some (first, last) ∧
      Run.inclusiveLength first last ≤ limit := by
  obtain ⟨env', u, hscope, hu⟩ :=
    succeeds_of_mem_sites (Settings.unlimited_extends_limited limit) h hsite
  rw [Site.bounds?, hscope]
  exact exists_bounds?_of_evaluate_limited hrange hu

/-- **A limit on ranges is a filter.**  Below the cap on lengths, there is a value under a limit just
if there is the same value without it and all ranges in it have at most as many elements.  So a
greater limit changes no value, and a fault that only the limit brings about is raised at a
range that has more elements. -/
theorem evaluate_limited_eq_ok_iff_and_mono_and_error (hlimit : limit < Run.lengthCap) (e : Expr)
    (env : Environment) :
    (∀ first last, (Run.inclusive first last).length = (last - first).natAbs + 1) ∧
    (∀ v, e.evaluate (.limited limit) env = .ok v ↔ e.evaluate .unlimited env = .ok v ∧
      ∀ site ∈ e.sites .unlimited [] (some env), site.node.binaryOp? = some .range →
        ∃ first last, site.bounds? .unlimited = some (first, last) ∧
          (last - first).natAbs + 1 ≤ limit) ∧
    (∀ v greater, limit ≤ greater → e.evaluate (.limited limit) env = .ok v →
      e.evaluate (.limited greater) env = .ok v) ∧
    ∀ v f, e.evaluate .unlimited env = .ok v → e.evaluate (.limited limit) env = .error f →
      ∃ site ∈ e.sites .unlimited [] (some env), site.node.binaryOp? = some .range ∧
        ∃ first last, site.bounds? .unlimited = some (first, last) ∧
          limit < (last - first).natAbs + 1 ∧
          f = { cause := .evaluation
                  (.rangeTooLong first last (Run.inclusiveLength first last) limit),
                position := site.trail.find? Position.known } := by
  have hlong : ∀ first last, limit < Run.inclusiveLength first last ↔
      limit < (last - first).natAbs + 1 := by
    intro first last
    rw [Run.lt_inclusiveLength_iff hlimit, Run.length_inclusive]
  have hext := Settings.unlimited_extends_limited limit
  refine ⟨Run.length_inclusive, fun v => ⟨fun h => ⟨hext e env v h, ?_⟩, ?_⟩, ?_, ?_⟩
  · intro site hsite hrange
    obtain ⟨first, last, hbounds, hlength⟩ := exists_bounds?_of_mem_sites h hsite hrange
    exact ⟨first, last, hbounds, Nat.not_lt.1 fun h => Nat.not_lt.2 hlength ((hlong _ _).2 h)⟩
  · rintro ⟨hv, hshort⟩
    cases h : e.evaluate (.limited limit) env with
    | ok w => rw [← hext e env w h, hv]
    | error f =>
      -- the range that is too long is one of those that are not
      obtain ⟨site, hsite, hrange, first, last, hbounds, hlength, -⟩ :=
        exists_site_of_evaluate_limited_eq_error hv h
      obtain ⟨first', last', hbounds', hlength'⟩ := hshort site hsite hrange
      cases hbounds.symm.trans hbounds'
      exact absurd ((hlong first last).1 hlength) (Nat.not_lt.2 hlength')
  · exact fun v greater hle h => Settings.limited_extends_limited hle e env v h
  · intro v f hv hf
    obtain ⟨site, hsite, hrange, first, last, hbounds, hlength, hfault⟩ :=
      exists_site_of_evaluate_limited_eq_error hv hf
    exact ⟨site, hsite, hrange, first, last, hbounds, (hlong first last).1 hlength, hfault⟩

/-- An open range of three elements: a limit of three lets it through, a limit of two does not. -/
theorem evaluate_limited_open_range :
    let null := literal .null .unknown
    let index := binary (literal (.number .zero) .unknown) .range (reference lastIndexName .unknown)
      ⟨1, 9⟩
    let e := subscript (array [null, null, null] .unknown) index .unknown
    3 < Run.lengthCap ∧
      (∃ v, e.evaluate (.limited 3) .empty = .ok v ∧ e.evaluate .unlimited .empty = .ok v) ∧
      ∃ f, e.evaluate (.limited 2) .empty = .error f ∧
        ∃ site ∈ e.sites .unlimited [] (some .empty), site.node.binaryOp? = some .range ∧
          ∃ first last, site.bounds? .unlimited = some (first, last) ∧
            2 < (last - first).natAbs + 1 := by
  intro null index e
  have h3 : 3 < Run.lengthCap := by decide
  have h2 : 2 < Run.lengthCap := by decide
  have hok : (e.evaluate (.limited 3) .empty).toOption.isSome = true := by decide +kernel
  have herror : (e.evaluate (.limited 2) .empty).fault?.isSome = true := by decide +kernel
  obtain ⟨v, hv⟩ := Option.isSome_iff_exists.1 hok
  obtain ⟨f, hf⟩ := Option.isSome_iff_exists.1 herror
  rw [Outcome.toOption_eq_some_iff] at hv
  rw [Outcome.fault?_eq_some_iff] at hf
  obtain ⟨_, hiff, _⟩ := evaluate_limited_eq_ok_iff_and_mono_and_error h3 e .empty
  obtain ⟨_, _, _, hfault⟩ := evaluate_limited_eq_ok_iff_and_mono_and_error h2 e .empty
  have hunlimited := ((hiff v).1 hv).1
  obtain ⟨site, hsite, hrange, first, last, hbounds, hlength, _⟩ := hfault v f hunlimited hf
  exact ⟨h3, ⟨v, hv, hunlimited⟩, f, hf, site, hsite, hrange, first, last, hbounds, hlength⟩

end
end Expr
end ExprLang
