import ExprLang.Fault

/-!
# Offers to a fault

A fault that leaves a nested evaluation is offered things on its way out: a position by each node, and a
complaint by each operator that asked for a conversion.  It may take them or leave them, and the offers come
in whatever order the nodes and operators stand in.

Nothing depends on that order beyond which offer of its kind is the first.  The two kinds of offers are
independent, since `locate` touches only the position (`annotate_position`) and `reword` only the cause
(`annotate_cause`).  And either is taken at most once:

* the position is set if there is none and the offer is a known one; from then on there is one;
* the cause is replaced if a value was of the wrong kind; what replaces it is a complaint, and that is not
  replaced again (`Cause.reword_reword`).

So after any sequence of offers the position is the fault's own or else the first known one
(`annotateAll_position`), and the cause is the fault's own or the first complaint
(`annotateAll_cause`).
-/

namespace ExprLang

/-- What a fault may be offered. -/
inductive Offer where
  /-- By a node: its position. -/
  | position (p : Position)
  /-- By an operator: what it complains about. -/
  | complaint (c : Complaint)
  deriving DecidableEq, Repr

namespace Offer

def position? : Offer → Option Position
  | position p => some p
  | complaint _ => none

def complaint? : Offer → Option Complaint
  | position _ => none
  | complaint c => some c

/-- The positions among several offers, in order. -/
def positions (offers : List Offer) : List Position := offers.filterMap position?

/-- The complaints among several offers, in order. -/
def complaints (offers : List Offer) : List Complaint := offers.filterMap complaint?

theorem positions_cons (a : Offer) (offers : List Offer) :
    positions (a :: offers) = positions [a] ++ positions offers := by
  show positions ([a] ++ offers) = _
  exact List.filterMap_append

theorem complaints_cons (a : Offer) (offers : List Offer) :
    complaints (a :: offers) = complaints [a] ++ complaints offers := by
  show complaints ([a] ++ offers) = _
  exact List.filterMap_append

theorem positions_map_position (ps : List Position) : positions (ps.map position) = ps := by
  induction ps with
  | nil => rfl
  | cons p ps ih => exact congrArg (p :: ·) ih

theorem complaints_map_position (ps : List Position) : complaints (ps.map position) = [] :=
  List.filterMap_eq_nil_iff.2 (List.forall_mem_map.2 fun _ _ => rfl)

end Offer

/-! ## Causes -/

namespace Cause

/-- The cause is that a value is of the wrong kind. -/
def IsMismatch (cause : Cause) : Prop :=
  ∃ value source target,
    cause = conversion value source target ∨ cause = dereference value source target

theorem reword_of_isMismatch {cause : Cause} (h : cause.IsMismatch) (c : Complaint) :
    cause.reword c = evaluation c := by
  obtain ⟨value, source, target, rfl | rfl⟩ := h <;> rfl

theorem reword_of_not_isMismatch {cause : Cause} (h : ¬ cause.IsMismatch) (c : Complaint) :
    cause.reword c = cause := by
  cases cause with
  | conversion value source target => exact absurd ⟨value, source, target, .inl rfl⟩ h
  | dereference value source target => exact absurd ⟨value, source, target, .inr rfl⟩ h
  | evaluation _ | index _ _ | indexOutOfBounds _ _ => rfl

/-- **A cause is replaced once.** -/
theorem reword_reword (cause : Cause) (first second : Complaint) :
    (cause.reword first).reword second = cause.reword first := by
  cases cause <;> rfl

/-- The cause after several complaints, one after the other. -/
def rewordAll (cause : Cause) (cs : List Complaint) : Cause :=
  cs.foldl (fun cause c => cause.reword c) cause

/-- Of several complaints the first one counts. -/
theorem rewordAll_cons (cause : Cause) (c : Complaint) (cs : List Complaint) :
    cause.rewordAll (c :: cs) = cause.reword c := by
  induction cs with
  | nil => rfl
  | cons d cs ih =>
    show ((cause.reword c).reword d).rewordAll cs = _
    rw [reword_reword]
    exact ih

theorem rewordAll_of_not_isMismatch {cause : Cause} (h : ¬ cause.IsMismatch)
    (cs : List Complaint) : cause.rewordAll cs = cause := by
  cases cs with
  | nil => rfl
  | cons c cs => rw [rewordAll_cons, reword_of_not_isMismatch h]

end Cause

/-! ## Offers -/

namespace Fault

theorem ext_of {f g : Fault} (hcause : f.cause = g.cause) (hposition : f.position = g.position) :
    f = g := by
  cases f
  cases g
  cases hcause
  cases hposition
  rfl

/-- The fault after one offer. -/
def annotate (f : Fault) : Offer → Fault
  | .position p => f.locate p
  | .complaint c => f.reword c

/-- The fault after several offers, one after the other. -/
def annotateAll (f : Fault) (offers : List Offer) : Fault := offers.foldl annotate f

theorem annotateAll_cons (f : Fault) (a : Offer) (offers : List Offer) :
    f.annotateAll (a :: offers) = (f.annotate a).annotateAll offers := rfl

theorem locate_position (f : Fault) (p : Position) :
    (f.locate p).position = f.position.or ([p].find? Position.known) := by
  unfold locate
  cases h : f.position with
  | some q => exact h
  | none =>
    by_cases hp : p.known = true
    · rw [if_pos hp, List.find?_cons_of_pos hp]
      rfl
    · rw [if_neg hp, List.find?_cons_of_neg hp]
      exact h

/-- **An offer fills in a missing position**, and only a known position can do so. -/
theorem annotate_position (f : Fault) (a : Offer) :
    (f.annotate a).position = f.position.or ((Offer.positions [a]).find? Position.known) := by
  cases a with
  | position p => exact locate_position f p
  | complaint c => exact Option.or_none.symm

/-- **An offer replaces the cause**, and only a complaint can do so. -/
theorem annotate_cause (f : Fault) (a : Offer) :
    (f.annotate a).cause = f.cause.rewordAll (Offer.complaints [a]) := by
  cases a with
  | position p => exact locate_cause f p
  | complaint c => rfl

/-- The position after several offers. -/
theorem annotateAll_position (f : Fault) (offers : List Offer) :
    (f.annotateAll offers).position =
      f.position.or ((Offer.positions offers).find? Position.known) := by
  induction offers generalizing f with
  | nil => exact Option.or_none.symm
  | cons a offers ih =>
    rw [annotateAll_cons, ih, annotate_position, Offer.positions_cons a offers, List.find?_append,
      Option.or_assoc]

/-- The cause after several offers. -/
theorem annotateAll_cause (f : Fault) (offers : List Offer) :
    (f.annotateAll offers).cause = f.cause.rewordAll (Offer.complaints offers) := by
  induction offers generalizing f with
  | nil => rfl
  | cons a offers ih =>
    rw [annotateAll_cons, ih, annotate_cause, Offer.complaints_cons a offers]
    exact List.foldl_append.symm

/-- **Offers are taken once, in whatever order they are offered.**  The position is the fault's own or
else the first known one.  If a value was of the wrong kind, the first complaint is what the fault says;
otherwise, or without a complaint, its cause is its own.  So offers of the two kinds may be interleaved in
any other way with the same result. -/
theorem annotateAll_set_once (f : Fault) (offers : List Offer) :
    (f.annotateAll offers).position =
      f.position.or ((Offer.positions offers).find? Position.known) ∧
    (∀ c rest, f.cause.IsMismatch → Offer.complaints offers = c :: rest →
      (f.annotateAll offers).cause = .evaluation c ∧ (f.annotateAll offers).message = c.message) ∧
    (¬ f.cause.IsMismatch ∨ Offer.complaints offers = [] →
      (f.annotateAll offers).cause = f.cause) ∧
    ∀ offers', Offer.positions offers' = Offer.positions offers →
      Offer.complaints offers' = Offer.complaints offers →
        f.annotateAll offers' = f.annotateAll offers := by
  refine ⟨annotateAll_position f offers, fun c rest hmismatch hcomplaints => ?_, ?_, ?_⟩
  · have hcause : (f.annotateAll offers).cause = .evaluation c := by
      rw [annotateAll_cause, hcomplaints, Cause.rewordAll_cons,
        Cause.reword_of_isMismatch hmismatch]
    refine ⟨hcause, ?_⟩
    rw [message, hcause]
    rfl
  · rw [annotateAll_cause]
    rintro (hmismatch | hcomplaints)
    · exact Cause.rewordAll_of_not_isMismatch hmismatch _
    · rw [hcomplaints]
      rfl
  · intro offers' hpositions hcomplaints
    refine ext_of ?_ ?_
    · rw [annotateAll_cause, annotateAll_cause, hcomplaints]
    · rw [annotateAll_position, annotateAll_position, hpositions]

/-- A conversion without a position that is offered two complaints and three positions, the first of
them unknown. -/
theorem annotateAll_set_once_of_conversion :
    let f : Fault := { cause := .conversion "\x7b\x7d" .map .number }
    let a : Offer := .complaint (.other "inner")
    let b : Offer := .complaint (.other "outer")
    let p : Offer := .position ⟨3, 3⟩
    let q : Offer := .position ⟨1, 1⟩
    let offers := [.position .unknown, a, p, b, q]
    f.cause.IsMismatch ∧ Offer.complaints offers = [.other "inner", .other "outer"] ∧
      f.annotateAll offers = { cause := .evaluation (.other "inner"), position := some ⟨3, 3⟩ } ∧
      f.annotateAll [.position .unknown, p, q, a, b] = f.annotateAll offers := by
  intro f a b p q offers
  have hmismatch : f.cause.IsMismatch := ⟨_, _, _, .inl rfl⟩
  have hcomplaints : Offer.complaints offers = [.other "inner", .other "outer"] := rfl
  obtain ⟨hposition, hcause, -, hinterleaved⟩ := annotateAll_set_once f offers
  obtain ⟨hevaluation, -⟩ := hcause _ _ hmismatch hcomplaints
  exact ⟨hmismatch, hcomplaints, ext_of hevaluation hposition, hinterleaved _ rfl rfl⟩

end Fault
end ExprLang
