import ExprLang.Fault

/-!
# Outcomes

What can be said of an outcome whatever it is the outcome of.

* A sequence of steps has a value just if each of its steps has one (`bind_eq_ok_iff`,
  `toOption_bind`).
* One step for each element of a list has a value just if every step has one
  (`exists_mapM_eq_ok_iff`), and these are its elements, in order (`mapM_eq_ok_iff`).  It fails as the
  first step that does (`mapM_eq_error_iff`), since the steps are taken in order and the first fault
  ends them.  A change of the elements that each step commutes with passes through all of them
  (`mapM_map_eq`).
* `Extends` compares two outcomes by their values alone.  It is kept by sequencing, so two
  computations can be compared step by step.
-/

namespace ExprLang
namespace Outcome
variable {α β : Type}

/-! ## Values -/

/-- A fault is no value. -/
theorem not_exists_eq_ok (f : Fault) : ¬ ∃ a, (.error f : Outcome α) = .ok a :=
  fun ⟨_, h⟩ => nomatch h

theorem bind_eq_ok_iff {o : Outcome α} {f : α → Outcome β} {b : β} :
    (o >>= f) = .ok b ↔ ∃ a, o = .ok a ∧ f a = .ok b := by
  cases o with
  | ok a => simp [bind, Except.bind]
  | error e => simp [bind, Except.bind]

theorem bind_eq_error_iff {o : Outcome α} {f : α → Outcome β} {g : Fault} :
    (o >>= f) = .error g ↔ o = .error g ∨ ∃ a, o = .ok a ∧ f a = .error g := by
  cases o with
  | ok a => simp [bind, Except.bind]
  | error e => simp [bind, Except.bind]

theorem map_eq_ok_iff {o : Outcome α} {f : α → β} {b : β} :
    Except.map f o = .ok b ↔ ∃ a, o = .ok a ∧ f a = b := by
  cases o with
  | ok a => simp [Except.map]
  | error e => simp [Except.map]

/-- What is done with a value afterwards does not change whether there is one. -/
theorem exists_map_eq_ok_iff {o : Outcome α} {f : α → β} :
    (∃ b, Except.map f o = .ok b) ↔ ∃ a, o = .ok a := by
  cases o with
  | ok a => exact ⟨fun _ => ⟨a, rfl⟩, fun _ => ⟨f a, rfl⟩⟩
  | error e => exact iff_of_false (not_exists_eq_ok e) (not_exists_eq_ok e)

theorem toOption_bind (o : Outcome α) (f : α → Outcome β) :
    (o >>= f).toOption = o.toOption.bind fun a => (f a).toOption := by
  cases o <;> rfl

theorem toOption_eq_some_iff {o : Outcome α} {a : α} : o.toOption = some a ↔ o = .ok a := by
  cases o with
  | ok b => exact ⟨fun h => congrArg Except.ok (Option.some.inj h), fun h => by cases h; rfl⟩
  | error f => exact iff_of_false nofun nofun

theorem exists_eq_ok_iff {o : Outcome α} : (∃ a, o = .ok a) ↔ o.toOption.isSome = true := by
  cases o with
  | ok a => exact ⟨fun _ => rfl, fun _ => ⟨a, rfl⟩⟩
  | error f => exact iff_of_false (not_exists_eq_ok f) Bool.false_ne_true

/-! ## One step for each element of a list -/

section
variable {f : α → Outcome β} {as : List α}

theorem mapM_cons_eq_ok_iff {a : α} {bs : List β} :
    (a :: as).mapM f = .ok bs ↔ ∃ b rest, f a = .ok b ∧ as.mapM f = .ok rest ∧ bs = b :: rest := by
  rw [List.mapM_cons, bind_eq_ok_iff]
  refine exists_congr fun b => ?_
  rw [bind_eq_ok_iff]
  constructor
  · rintro ⟨hb, rest, hrest, h⟩
    exact ⟨rest, hb, hrest, (Except.ok.inj h).symm⟩
  · rintro ⟨rest, hb, hrest, rfl⟩
    exact ⟨hb, rest, hrest, rfl⟩

/-- **All steps have a value** just if each of them has one. -/
theorem exists_mapM_eq_ok_iff :
    (∃ bs, as.mapM f = .ok bs) ↔ ∀ a ∈ as, ∃ b, f a = .ok b := by
  induction as with
  | nil => exact iff_of_true ⟨[], rfl⟩ fun _ ha => absurd ha List.not_mem_nil
  | cons a as ih =>
    rw [List.forall_mem_cons, ← ih]
    constructor
    · rintro ⟨bs, h⟩
      obtain ⟨b, rest, hb, hrest, -⟩ := mapM_cons_eq_ok_iff.1 h
      exact ⟨⟨b, hb⟩, rest, hrest⟩
    · rintro ⟨⟨b, hb⟩, rest, hrest⟩
      exact ⟨b :: rest, mapM_cons_eq_ok_iff.2 ⟨b, rest, hb, hrest, rfl⟩⟩

/-- The elements of the result are the values of the steps. -/
theorem mem_iff_of_mapM_eq_ok {bs : List β} (h : as.mapM f = .ok bs) {b : β} :
    b ∈ bs ↔ ∃ a ∈ as, f a = .ok b := by
  induction as generalizing bs with
  | nil =>
    obtain rfl : [] = bs := Except.ok.inj h
    exact iff_of_false List.not_mem_nil fun ⟨_, ha, _⟩ => List.not_mem_nil ha
  | cons a as ih =>
    obtain ⟨c, rest, hc, hrest, rfl⟩ := mapM_cons_eq_ok_iff.1 h
    have hhead : b = c ↔ f a = .ok b := by
      rw [hc]
      exact ⟨fun hb => hb ▸ rfl, fun hb => (Except.ok.inj hb).symm⟩
    simp only [List.mem_cons, exists_eq_or_imp, ih hrest, hhead]

/-- The values of all steps are the values of the steps, one after the other. -/
theorem mapM_eq_ok_iff {bs : List β} : as.mapM f = .ok bs ↔ as.map f = bs.map .ok := by
  induction as generalizing bs with
  | nil =>
    constructor
    · rintro ⟨⟩
      rfl
    · intro h
      rw [List.map_eq_nil_iff.1 h.symm]
      rfl
  | cons a as ih =>
    rw [mapM_cons_eq_ok_iff, List.map_cons, eq_comm (b := bs.map _), List.map_eq_cons_iff]
    constructor
    · rintro ⟨b, rest, hb, hrest, rfl⟩
      exact ⟨b, rest, rfl, hb.symm, (ih.1 hrest).symm⟩
    · rintro ⟨b, rest, rfl, hb, hrest⟩
      exact ⟨b, rest, hb.symm, ih.2 hrest.symm, rfl⟩

theorem length_of_mapM_eq_ok {bs : List β} (h : as.mapM f = .ok bs) : bs.length = as.length := by
  simpa using (congrArg List.length (mapM_eq_ok_iff.1 h)).symm

theorem exists_getElem?_of_mapM_eq_ok {bs : List β} (h : as.mapM f = .ok bs) {j : Nat} {a : α}
    (ha : as[j]? = some a) : ∃ b, bs[j]? = some b ∧ f a = .ok b := by
  have hj := congrArg (fun os => os[j]?) (mapM_eq_ok_iff.1 h)
  simp only [List.getElem?_map, ha, Option.map_some] at hj
  obtain ⟨b, hb, hab⟩ := Option.map_eq_some_iff.1 hj.symm
  exact ⟨b, hb, hab.symm⟩

theorem mapM_cons_eq_error_iff {a : α} {g : Fault} :
    (a :: as).mapM f = .error g ↔
      f a = .error g ∨ ∃ b, f a = .ok b ∧ as.mapM f = .error g := by
  rw [List.mapM_cons, bind_eq_error_iff]
  refine or_congr_right (exists_congr fun b => and_congr_right fun _ => ?_)
  rw [bind_eq_error_iff]
  exact or_iff_left fun ⟨_, _, h⟩ => nomatch h

/-- **The first fault is that of all steps**: the steps before it have values, and those after it are
not taken. -/
theorem mapM_eq_error_iff {g : Fault} :
    as.mapM f = .error g ↔ ∃ before a after, as = before ++ a :: after ∧
      (∀ earlier ∈ before, ∃ b, f earlier = .ok b) ∧ f a = .error g := by
  induction as with
  | nil => exact iff_of_false nofun fun ⟨before, _, _, h, _⟩ => by cases before <;> cases h
  | cons a as ih =>
    rw [mapM_cons_eq_error_iff, ih]
    constructor
    · rintro (hg | ⟨b, hb, before, a', after, rfl, hbefore, hg⟩)
      · exact ⟨[], a, as, rfl, fun _ h => absurd h List.not_mem_nil, hg⟩
      · exact ⟨a :: before, a', after, rfl, List.forall_mem_cons.2 ⟨⟨b, hb⟩, hbefore⟩, hg⟩
    · rintro ⟨before, a', after, has, hbefore, hg⟩
      cases before with
      | nil =>
        cases has
        exact .inl hg
      | cons a'' before =>
        cases has
        obtain ⟨⟨b, hb⟩, hbefore⟩ := List.forall_mem_cons.1 hbefore
        exact .inr ⟨b, hb, before, a', after, rfl, hbefore, hg⟩

/-- Where elements and the values of the steps are changed alike, so are all values together. -/
theorem mapM_map_eq {α' β' : Type} {g : α → α'} {h : β → β'} {f' : α' → Outcome β'}
    (hf : ∀ a, f' (g a) = Except.map h (f a)) (as : List α) :
    (as.map g).mapM f' = Except.map (List.map h) (as.mapM f) := by
  induction as with
  | nil => rfl
  | cons a as ih =>
    rw [List.map_cons, List.mapM_cons, List.mapM_cons, hf, ih]
    cases f a with
    | error fault => rfl
    | ok b => cases as.mapM f <;> rfl

end

/-! ## Outcomes that extend others -/

/-- The first outcome has the value of the second one, if that has a value. -/
def Extends (o o' : Outcome α) : Prop := ∀ a, o' = .ok a → o = .ok a

theorem Extends.refl (o : Outcome α) : Extends o o := fun _ h => h

theorem Extends.bind {o o' : Outcome α} {k k' : α → Outcome β} (h : Extends o o')
    (hk : ∀ a, Extends (k a) (k' a)) : Extends (o >>= k) (o' >>= k') := by
  intro b hb
  obtain ⟨a, ha, hb⟩ := bind_eq_ok_iff.1 hb
  exact bind_eq_ok_iff.2 ⟨a, h a ha, hk a b hb⟩

theorem Extends.map {o o' : Outcome α} (h : Extends o o') (f : α → β) :
    Extends (Except.map f o) (Except.map f o') := by
  intro b hb
  obtain ⟨a, ha, rfl⟩ := map_eq_ok_iff.1 hb
  exact map_eq_ok_iff.2 ⟨a, h a ha, rfl⟩

theorem Extends.mapM {f g : α → Outcome β} (h : ∀ a, Extends (f a) (g a)) (as : List α) :
    Extends (as.mapM f) (as.mapM g) := by
  induction as with
  | nil => exact .refl _
  | cons a as ih =>
    rw [List.mapM_cons, List.mapM_cons]
    exact (h a).bind fun b => ih.bind fun bs => .refl _

theorem Extends.toOption_eq_some {o o' : Outcome α} (h : Extends o o') {a : α}
    (ha : o'.toOption = some a) : o.toOption = some a :=
  toOption_eq_some_iff.2 (h a (toOption_eq_some_iff.1 ha))

end Outcome
end ExprLang
