import ExprLang.Proofs.Evaluation.RangeLimit
import ExprLang.Proofs.Value.Gathering

/-!
# Open ranges are slices

`x[k..]` is what follows the first `k` elements of `x`, and `x[..k]` is the same in reverse
(`evaluate_subscript_open_ranges`).  No rule of the language says so.  A subscript binds the last index of
what is indexed, an open range is a binary one with this variable as a bound, a range runs up or down as its
bounds lie, and a range as an index gathers.

* If `k` is a place, then the range from it to the last one is a list of places
  (`Run.inclusive_eq_map_places`), and the range to it is the same in reverse (`Run.reverse_inclusive`).
* If it is not, then it is beyond the last one and the ranges turn around: `k..` runs down, and `..k` runs
  up.  The first begins with `k`.  The second begins with the last place and goes on with the length; where
  there are no places, it begins with -1.  So both meet an integer that is no place
  (`index_range_of_no_place`), and neither gets to a place by counting from the end.
-/

namespace ExprLang

/-! ## Runs -/

namespace Run
variable {first last : Int}

/-- The run from a place to the last one holds the places from there on. -/
theorem inclusive_eq_map_places {length k : Nat} (h : k < length) :
    inclusive k (length - 1) =
      ((List.finRange length).drop k).map fun place : Fin length => (place.val : Int) := by
  apply List.ext_getElem
  · simp only [List.length_map, List.length_drop, List.length_finRange, length_inclusive]
    omega
  · intro i _ _
    simp only [getElem_inclusive, List.getElem_map, List.getElem_drop, List.getElem_finRange,
      Fin.val_cast]
    omega

theorem exists_inclusive_eq_cons (first last : Int) :
    ∃ rest, inclusive first last = first :: rest := by
  unfold inclusive
  split <;> simp [List.range_succ_eq_map]

/-- A run upwards goes on with the next integer. -/
theorem exists_inclusive_eq_cons_cons (h : first < last) :
    ∃ rest, inclusive first last = first :: (first + 1) :: rest := by
  obtain ⟨m, hm⟩ : ∃ m, (last - first).toNat = m + 1 := ⟨(last - first).toNat - 1, by omega⟩
  unfold inclusive
  rw [if_pos (Int.le_of_lt h), hm]
  simp [List.range_succ_eq_map]

end Run

/-! ## Runs as indices -/

namespace Value
variable {v : Value} {es : List Element}

theorem resolveInteger_place (v : Value) {length : Nat} (place : Fin length) :
    v.resolveInteger length place.val = .ok place := by
  have h : place? place.val length = some place := place?_eq_some_iff.2 (by omega)
  rw [resolveInteger, h]

/-- Places select the elements that stand there. -/
theorem index_range_of_places (hv : v.elements? = some es) (places : List (Fin es.length))
    (p : Position) :
    ∃ w, v.index ⟨.range (places.map fun place => (place.val : Int)), p⟩ = .ok w ∧
      w.kind = v.kind ∧ w.elements? = some (places.map es.get) := by
  refine index_of_mapM_eq_ok hv rfl (Outcome.mapM_eq_ok_iff.2 ?_)
  rw [List.map_map]
  exact List.map_congr_left fun place _ => v.resolveInteger_place place

/-- The first integer that is no place is at fault. -/
theorem index_range_of_no_place (hv : v.elements? = some es) (before : List Int)
    {after : List Int} {n : Int}
    (hbefore : ∀ m ∈ before, ∃ place, place? m es.length = some place)
    (hn : place? n es.length = none) (p : Position) :
    v.index ⟨.range (before ++ n :: after), p⟩ = .error (v.integerFault n) := by
  refine index_of_mapM_eq_error hv rfl (Outcome.mapM_eq_error_iff.2 ?_)
  refine ⟨before, n, after, rfl, fun m hm => ?_, ?_⟩
  · obtain ⟨place, hplace⟩ := hbefore m hm
    exact ⟨place, by rw [resolveInteger, hplace]⟩
  · rw [resolveInteger, hn]
    rfl

/-- Elements from a place on, as they are read from there. -/
theorem map_get_drop_finRange (es : List Element) (k : Nat) :
    ((List.finRange es.length).drop k).map es.get = es.drop k := by
  apply List.ext_getElem
  · simp
  · intro i _ _
    simp

/-- **A value is known by its kind and its elements.** -/
theorem payload_of_elements? {w : Value} (hv : v.elements? = some es) (hw : w.elements? = some es)
    (hkind : w.kind = v.kind) : w.payload = v.payload := by
  obtain ⟨payload, p⟩ := w
  rcases eq_of_elements? hv with ⟨items, q, rfl, rfl⟩ | ⟨integers, q, rfl, rfl⟩ | ⟨s, q, rfl, rfl⟩
  · cases payload with
    | array items' =>
      rw [(List.map_inj_right fun _ _ => Element.item.inj).1 (Option.some.inj hw)]
    | _ => cases hkind
  · cases payload with
    | range integers' =>
      rw [(List.map_inj_right fun _ _ => Element.integer.inj).1 (Option.some.inj hw)]
    | _ => cases hkind
  · cases payload with
    | string s' =>
      have hchars := (List.map_inj_right fun _ _ => Element.character.inj).1 (Option.some.inj hw)
      rw [String.toList_inj.1 hchars]
    | _ => cases hkind

/-- What an open range gives as an index at `p`: a value of the same kind that has the elements of the
slice, if `k` is a place, and else the fault of an integer. -/
structure Slices (v : Value) (es : List Element) (k : Nat) (p : Position) (slice : List Element)
    (atFault : Int) (o : Outcome Value) : Prop where
  exists_ok_iff : (∃ w, o = .ok w) ↔ k < es.length
  elements : ∀ w, o = .ok w → w.kind = v.kind ∧ w.elements? = some slice ∧ w.position = p
  fault : es.length ≤ k → o = .error ((v.integerFault atFault).locate p)

section
variable {k : Nat} {p : Position} {slice : List Element} {atFault : Int} {o : Outcome Value}

theorem slices_located
    (hok : k < es.length → ∃ w, o = .ok w ∧ w.kind = v.kind ∧ w.elements? = some slice)
    (herror : es.length ≤ k → o = .error (v.integerFault atFault)) :
    Slices v es k p slice atFault (Outcome.located p o) := by
  rcases Nat.lt_or_ge k es.length with hk | hk
  · obtain ⟨w, rfl, hkind, helements⟩ := hok hk
    refine ⟨iff_of_true ⟨_, rfl⟩ hk, ?_, fun h => absurd hk (Nat.not_lt.2 h)⟩
    rintro w' ⟨⟩
    exact ⟨hkind, helements, rfl⟩
  · rw [herror hk]
    exact ⟨iff_of_false (Outcome.not_exists_eq_ok _) (Nat.not_lt.2 hk), nofun, fun _ => rfl⟩

/-- A slice that has all elements is a copy. -/
theorem Slices.eq_withPosition (h : Slices v es k p es atFault o) (hv : v.elements? = some es)
    (hk : k < es.length) : o = .ok (v.withPosition p) := by
  obtain ⟨u, rfl⟩ := h.exists_ok_iff.2 hk
  obtain ⟨hkind, helements, rfl⟩ := h.elements u rfl
  exact congrArg Except.ok (Value.ext' (payload_of_elements? hv helements hkind) rfl)

/-- The range from `k` to the last place selects what follows the first `k` elements. -/
theorem slices_from (hv : v.elements? = some es) (k : Nat) (p q : Position) :
    Slices v es k p (es.drop k) k
      (Outcome.located p (v.index ⟨.range (Run.inclusive k (es.length - 1)), q⟩)) := by
  refine slices_located (fun hk => ?_) fun hk => ?_
  · rw [Run.inclusive_eq_map_places hk, ← map_get_drop_finRange]
    exact index_range_of_places hv _ q
  · have hnone : place? k es.length = none := place?_eq_none_iff.2 (by omega)
    obtain ⟨rest, hrest⟩ := Run.exists_inclusive_eq_cons k (es.length - 1)
    rw [hrest]
    exact index_range_of_no_place hv [] (List.forall_mem_nil _) hnone q

/-- The range from the last place to `k` selects the same in reverse. -/
theorem slices_upTo (hv : v.elements? = some es) (k : Nat) (p q : Position) :
    Slices v es k p (es.drop k).reverse (if es.length = 0 then -1 else es.length)
      (Outcome.located p (v.index ⟨.range (Run.inclusive (es.length - 1) k), q⟩)) := by
  refine slices_located (fun hk => ?_) fun hk => ?_
  · rw [← Run.reverse_inclusive, Run.inclusive_eq_map_places hk, ← List.map_reverse,
      ← map_get_drop_finRange, ← List.map_reverse]
    exact index_range_of_places hv _ q
  · split
    · -- without elements the run begins with -1
      rename_i hzero
      have hnone : place? (-1) es.length = none := place?_eq_none_iff.2 (by omega)
      obtain ⟨rest, hrest⟩ := Run.exists_inclusive_eq_cons (es.length - 1) k
      rw [hrest, hzero]
      exact index_range_of_no_place hv [] (List.forall_mem_nil _) hnone q
    · -- the run begins with the last place, and the next integer is none
      have hlast : ∃ place, place? (es.length - 1) es.length = some place :=
        exists_place?_iff.2 (by omega)
      have hnone : place? es.length es.length = none := place?_eq_none_iff.2 (by omega)
      obtain ⟨rest, hrest⟩ := Run.exists_inclusive_eq_cons_cons (by omega : (es.length : Int) - 1 < k)
      rw [hrest, Int.sub_add_cancel]
      exact index_range_of_no_place hv [(es.length : Int) - 1]
        (List.forall_mem_singleton.2 hlast) hnone q

end

end Value

/-! ## Bounds -/

/-- The last index truncates to what it is meant to be, and to -1 if there are no elements. -/
theorem Number.truncated_lastIndex {length : Nat} (h : length ≤ exactBound) :
    ((ofInt length).sub (ofInt 1)).truncated = length - 1 := by
  have hpred : ((length : Int) - 1).natAbs ≤ exactBound := by
    unfold exactBound at *
    omega
  exact truncated_sub_ofInt (by omega) (by decide) hpred

/-- Inside a subscript the open end of a range is the last index. -/
theorem Environment.read_withLastIndex (env : Environment) {v : Value} {length : Nat}
    (h : v.length = .ok length) :
    (env.withLastIndex v).read Expr.lastIndexName =
      .ok (.number ((Number.ofInt length).sub (.ofInt 1))) := by
  have hbind : env.withLastIndex v =
      env.bind Expr.lastIndexName (.number ((Number.ofInt length).sub (.ofInt 1))) := by
    rw [withLastIndex, h]
  rw [hbind, read, bind_self]
  exact if_neg fun hundefined => Bool.false_ne_true hundefined.2

namespace Expr
variable {env : Environment} {left right : Expr} {a b : Number} {first last : Int}

/-- A range of numbers is the run between their integer parts. -/
theorem evaluate_range {q q' : Position}
    (hleft : left.evaluate .unlimited env = .ok ⟨.number a, q⟩)
    (hright : right.evaluate .unlimited env = .ok ⟨.number b, q'⟩)
    (ha : a.truncated = first) (hb : b.truncated = last) (p : Position) :
    (binary left .range right p).evaluate .unlimited env =
      .ok ⟨.range (Run.inclusive first last), p⟩ := by
  subst ha hb
  rw [evaluate, hleft, hright]
  rfl

/-- A subscript whose index has a value indexes with it. -/
theorem evaluate_subscript {settings : Settings} {x index : Expr} {v i : Value}
    (hx : x.evaluate settings env = .ok v)
    (hi : index.evaluate settings (env.withLastIndex v) = .ok i) (p : Position) :
    (subscript x index p).evaluate settings env = Outcome.located p (v.index i) := by
  rw [evaluate, hx]
  show Outcome.located p (index.evaluate settings (env.withLastIndex v) >>= v.index) = _
  rw [hi]
  rfl

/-- **An open end makes a subscript a slice.**  From `k` on, `x[k..]` has the elements of `x` in order and
`x[..k]` in reverse, if `k` is less than the number of elements; else both are out of bounds.  So `x[0..]`
is a copy of what is not empty, and `x[..0]` reverses it. -/
theorem evaluate_subscript_open_ranges {x : Expr} {v : Value} {es : List Element}
    (hx : x.evaluate .unlimited env = .ok v) (hv : v.elements? = some es)
    (hlength : es.length ≤ Number.exactBound) {k : Nat} (hk : k ≤ Number.exactBound)
    (p q r s : Position) :
    let bound := literal ((Value.integer k).withPosition s) r
    let fromBound := (subscript x (rangeFrom bound q) p).evaluate .unlimited env
    let upToBound := (subscript x (rangeUpTo bound q) p).evaluate .unlimited env
    v.Slices es k p (es.drop k) k fromBound ∧
      v.Slices es k p (es.drop k).reverse (if es.length = 0 then -1 else es.length) upToBound ∧
      (k = 0 → es ≠ [] → fromBound = .ok (v.withPosition p) ∧
        ∃ w, upToBound = .ok w ∧ w.kind = v.kind ∧ w.elements? = some es.reverse) := by
  intro bound fromBound upToBound
  have hlast : (reference lastIndexName q).evaluate .unlimited (env.withLastIndex v) =
      .ok ⟨.number ((Number.ofInt es.length).sub (.ofInt 1)), q⟩ := by
    rw [evaluate, Environment.read_withLastIndex env (Value.length_of_elements? hv)]
    rfl
  have hbound : bound.evaluate .unlimited (env.withLastIndex v) = .ok ⟨.number (.ofInt k), r⟩ := by
    rw [evaluate]
    rfl
  have hlast' := Number.truncated_lastIndex hlength
  have hbound' : (Number.ofInt k).truncated = k := Number.truncated_ofInt (by omega)
  have hfrom : v.Slices es k p (es.drop k) k fromBound := by
    have heval : fromBound = Outcome.located p
        (v.index ⟨.range (Run.inclusive k (es.length - 1)), q⟩) :=
      evaluate_subscript hx (evaluate_range hbound hlast hbound' hlast' q) p
    rw [heval]
    exact Value.slices_from hv k p q
  have hupTo : v.Slices es k p (es.drop k).reverse (if es.length = 0 then -1 else es.length)
      upToBound := by
    have heval : upToBound = Outcome.located p
        (v.index ⟨.range (Run.inclusive (es.length - 1) k), q⟩) :=
      evaluate_subscript hx (evaluate_range hlast hbound hlast' hbound' q) p
    rw [heval]
    exact Value.slices_upTo hv k p q
  refine ⟨hfrom, hupTo, ?_⟩
  rintro rfl hes
  have hplace : 0 < es.length := List.length_pos_iff.2 hes
  rw [List.drop_zero] at hfrom hupTo
  obtain ⟨w, hw⟩ := hupTo.exists_ok_iff.2 hplace
  obtain ⟨hkind, helements, -⟩ := hupTo.elements w hw
  exact ⟨hfrom.eq_withPosition hv hplace, w, hw, hkind, helements⟩

/-- Slices of a text of three characters: from 1 on, from its length on, and from 0 on. -/
theorem evaluate_subscript_open_ranges_of_three :
    let x := literal (.string "abc") ⟨1, 1⟩
    let v := (Value.string "abc").withPosition ⟨1, 1⟩
    let es := [Element.character 'a', .character 'b', .character 'c']
    let fromBound := fun k : Nat =>
      (subscript x (rangeFrom (literal (.integer k) .unknown) .unknown) ⟨1, 2⟩).evaluate .unlimited
        .empty
    let upToBound := fun k : Nat =>
      (subscript x (rangeUpTo (literal (.integer k) .unknown) .unknown) ⟨1, 2⟩).evaluate .unlimited
        .empty
    (x.evaluate .unlimited .empty = .ok v ∧ v.elements? = some es ∧
      es.length ≤ Number.exactBound ∧ 1 ≤ Number.exactBound ∧ 3 ≤ Number.exactBound) ∧
      (∃ w, fromBound 1 = .ok w ∧ w.elements? = some [.character 'b', .character 'c']) ∧
      (∃ w, upToBound 1 = .ok w ∧ w.elements? = some [.character 'c', .character 'b']) ∧
      fromBound 3 = .error ((v.integerFault 3).locate ⟨1, 2⟩) ∧
      upToBound 3 = .error ((v.integerFault 3).locate ⟨1, 2⟩) ∧
      fromBound 0 = .ok (v.withPosition ⟨1, 2⟩) := by
  intro x v es fromBound upToBound
  have hx : x.evaluate .unlimited .empty = .ok v := by
    rw [evaluate]
    rfl
  have hv : v.elements? = some es := rfl
  have hlength : es.length ≤ Number.exactBound := by decide
  have hone : 1 ≤ Number.exactBound := by decide
  have hthree : 3 ≤ Number.exactBound := by decide
  obtain ⟨hfrom, hupTo, -⟩ :=
    evaluate_subscript_open_ranges hx hv hlength hone ⟨1, 2⟩ .unknown .unknown .unknown
  obtain ⟨hfrom', hupTo', -⟩ :=
    evaluate_subscript_open_ranges hx hv hlength hthree ⟨1, 2⟩ .unknown .unknown .unknown
  obtain ⟨-, -, hcopy⟩ :=
    evaluate_subscript_open_ranges hx hv hlength (Nat.zero_le _) ⟨1, 2⟩ .unknown .unknown .unknown
  obtain ⟨w, hw⟩ := hfrom.exists_ok_iff.2 (by decide)
  obtain ⟨u, hu⟩ := hupTo.exists_ok_iff.2 (by decide)
  exact ⟨⟨hx, hv, hlength, hone, hthree⟩, ⟨w, hw, (hfrom.elements w hw).2.1⟩,
    ⟨u, hu, (hupTo.elements u hu).2.1⟩, hfrom'.fault (by decide), hupTo'.fault (by decide),
    (hcopy rfl (List.cons_ne_nil _ _)).1⟩

end Expr
end ExprLang
