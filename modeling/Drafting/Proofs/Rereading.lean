import Drafting.Proofs.Attachment
import Drafting.Proofs.Pairing
import Drafting.Proofs.Reaching
import Drafting.Proofs.Restoring

namespace Drafting

open Constant (Raw)

variable {K : Type}

/-- A kind is stored under its own name, and was once under an old one. -/
theorem Kind.id_of_ofId? {name : String} {k : Kind} (h : ofId? name = some k) :
    k.id = if name = oldRadiusLength then radiusLength.id else name := by
  unfold ofId? at h
  split at h
  · rename_i old
    rw [if_pos old, ← Option.some.inj h]
  · rename_i other
    rw [if_neg other]
    simpa using List.find?_some h

/-- A modifier has something to write. -/
theorem Kind.exists_target {k : Kind} (hk : k.isModifier = true) {objects : List ObjectId}
    (accepted : k.arity.accepts objects.length) :
    ∃ reference id rest, k.split? objects = some (reference, id :: rest) := by
  have many : 3 ≤ objects.length := by
    cases k with
    | mirror =>
      simp only [Kind.arity, Arity.accepts, Bool.and_eq_true, decide_eq_true_eq] at accepted
      exact accepted.1
    | _ => cases hk
  have left : objects.drop ((objects.length + 1) / 2) ≠ [] := by
    rw [ne_eq, List.drop_eq_nil_iff]
    omega
  obtain ⟨id, rest, targets⟩ := List.exists_cons_of_ne_nil left
  refine ⟨objects.take (objects.length / 2 + 1), id, rest, ?_⟩
  rw [Kind.split?, if_pos hk, targets]

namespace Sketch

variable {s : Sketch K} {id : ObjectId}

/-- The first object that is owned refuses the claim. -/
theorem claim_of_owned {ids : List ObjectId} {i j : ConstraintId}
    (owned : s.owner id = .ok (some i)) :
    s.claim (id :: ids) j = .error (.alreadyManaged id i) :=
  claim_eq_error_iff.mpr ⟨[], id, ids, rfl, List.forall_mem_nil _, .owned owned⟩

end Sketch

namespace Constraint

section Scopes

variable [Scalar K] {P : Pairing K} {t u : Sketch K} {ps qs : List (ScopeParam K)}
  {hs ks bs cs : List Handle}

/-- Where two scopes go together place by place, so do the parameters in them: those of objects as
they are paired, and the new ones of the one with the new ones of the other. -/
theorem Realized.paired (places : List.Forall₂ P.Places ps qs) (left : Realized t ps hs bs)
    (right : Realized u qs ks cs) :
    List.Forall₂ (fun h k => P.same h k ∨ (h, k) ∈ bs.zip cs) hs ks ∧
      List.Forall₂ (fun h k => ∃ p q, t.param? h = some p ∧ u.param? k = some q ∧
        p.name = q.name ∧ p.bounds = q.bounds ∧ (P.valued → p.value = q.value)) bs cs := by
  induction places generalizing hs ks bs cs with
  | nil =>
    obtain ⟨rfl, rfl⟩ := left
    obtain ⟨rfl, rfl⟩ := right
    exact ⟨.nil, .nil⟩
  | cons place _ ih =>
    cases place with
    | held same =>
      obtain ⟨_, rfl, left⟩ := left
      obtain ⟨_, rfl, right⟩ := right
      obtain ⟨all, news⟩ := ih left right
      exact ⟨.cons (.inl same) all, news⟩
    | fresh name bounds value =>
      obtain ⟨h, _, _, rfl, rfl, hp, left⟩ := left
      obtain ⟨k, _, _, rfl, rfl, hq, right⟩ := right
      obtain ⟨all, news⟩ := ih left right
      refine ⟨.cons (.inr (by simp)) (all.imp fun _ _ pair => pair.imp_right fun hz => ?_),
        .cons ⟨_, _, hp, hq, name, bounds, value⟩ news⟩
      exact List.mem_cons_of_mem _ hz

end Scopes

/-- The second constraint has the scope of the first, with new parameters of its own in the places
of those that the first brought along. -/
def SameScope (c d : Constraint K) : Prop :=
  List.Forall₂ (fun h k => (h ∉ c.auxiliary ∧ k = h) ∨ (h, k) ∈ c.auxiliary.zip d.auxiliary)
    c.params d.params

variable [Scalar K] {s t u v : Sketch K} {c d : Constraint K} {k : Kind}
  {objects : List ObjectId} {r : Record K}

/-- A constraint that is made of the same objects again, later on. -/
theorem sameScope_of_make {constants constants' : Table (Raw K)} {o : Options K}
    (residual : k.isModifier = false) (w : s.WellFormed)
    (first : outcome (make k objects constants o) s = (.ok c, t)) (keeps : s.Keeps u)
    (ordered : u.Ordered) (again : outcome (make k objects constants' o) u = (.ok d, v)) :
    c.SameScope d := by
  have fits := (exists_make_iff constants o w.toOrdered.grounded residual).mp ⟨c, t, first⟩
  have o₁ := w.toOrdered.counted
  have o₂ := ordered.counted
  -- no values are compared, since they may have changed
  obtain ⟨_, _, ps, qs, -, added, added', places⟩ := Pairing.fills_gather (P := .kept o₁ o₂) o
    residual fits (Pairing.objects_kept o₁ o₂ keeps fits)
  have installs := (leaves_make k objects constants o s).installs first
  obtain ⟨all, -⟩ := (realized_make residual added first).paired places
    (realized_make residual added' again)
  refine all.imp fun h k pair => pair.imp_left fun ⟨same, field⟩ => ⟨?_, same⟩
  exact installs.params.apart (w.live h field)

omit [Scalar K] in
theorem takeTargets_of_error {id : ConstraintId} {managed : List ObjectId} {scope : Scope}
    {e : SketchError} (refused : u.claim managed id = .error e) :
    outcome (takeTargets id managed scope) u =
      (.error (.ofSketch e), u.removeParams scope.auxiliary) := by
  unfold takeTargets
  rw [outcome_bind_ok (outcome_get u), refused]
  rfl

/-- Where the targets are refused, nothing is made. -/
theorem make_of_refused {constants : Table (Raw K)} {o : Options K} {e : SketchError}
    {reference managed : List ObjectId} {scope : Scope}
    (accepted : k.arity.accepts objects.length)
    (split : k.split? objects = some (reference, managed))
    (taken : outcome (takeScope k objects o) s.numbered = (.ok scope, u))
    (refused : u.claim managed ⟨s.constraintsMade⟩ = .error e) :
    outcome (make k objects constants o) s =
      (.error (.ofSketch e), u.removeParams scope.auxiliary) := by
  unfold make
  simp only [accepted, Bool.not_true, Bool.false_eq_true, if_false]
  rw [outcome_bind_ok (outcome_liftM _ s)]
  refine (outcome_bind_ok taken _).trans ?_
  rw [split]
  exact outcome_bind_error (takeTargets_of_error refused) _

theorem read_of_error {e : ConstraintError} (known : ∀ id ∈ r.objects, s.contains id)
    (kind : Kind.ofId? r.typeId = some k)
    (failed : outcome (make k r.objects r.constants .standard) s = (.error e, t)) :
    outcome (read r) s = (.error e, t) := by
  unfold read
  rw [outcome_bind_ok (outcome_get s)]
  refine (outcome_bind_ok (lookUp_eq_ok.mpr ⟨known, rfl, rfl⟩) _).trans ?_
  rw [kind]
  exact failed

/-- A later sketch, in which the objects of an earlier one are still there and the constraint still
has its marks. Values may have changed, and other constraints may have come and gone. -/
structure Persists (c : Constraint K) (s t : Sketch K) : Prop where
  ordered : t.Ordered
  keeps : s.Keeps t
  numbered : c.id.val < t.constraintsMade
  marks : ∀ id ∈ c.managed, t.owner id = .ok (some c.id)

omit [Scalar K] in
theorem Installs.persists (h : c.Installs s t) (o : s.Ordered) : c.Persists s t where
  ordered := o.sameShapes h.sameShapes
  keeps := h.sameShapes.keeps
  numbered := h.numbered.2
  marks id hid := (Sketch.owned_claim h.unowned h.entities id c.id).mpr (.inr ⟨rfl, hid⟩)

theorem installs_read (h : outcome (read r) s = (.ok c, t)) : c.Installs s t :=
  (leaves_read r s).installs h

/-- A constraint that is read where the first one was numbered before has another number. -/
theorem ne_of_read (before : c.id.val < u.constraintsMade)
    (again : outcome (read c.record) u = (.ok d, v)) : d.id ≠ c.id := by
  intro same
  have later := (installs_read again).numbered.1
  rw [same] at later
  exact Nat.lt_irrefl _ (Nat.lt_of_lt_of_le before later)

theorem record_read (h : outcome (read r) s = (.ok c, t)) : c.record =
    { r with
      typeId := if r.typeId = Kind.oldRadiusLength then Kind.radiusLength.id else r.typeId } := by
  obtain ⟨-, k, kind, made⟩ := read_eq_ok.mp h
  obtain ⟨rfl, objects, constants, -⟩ := fields_make made
  rw [record, objects, constants, Kind.id_of_ofId? kind]

omit [Scalar K] in
theorem Stands.managed_of_residual (stands : c.Stands u) (residual : c.kind.isModifier = false) :
    c.managed = [] := by
  rw [stands.targets, Kind.targets, Kind.split?, residual]
  rfl

/-- A constraint with residuals can be read again at any time. -/
theorem read_again (w : s.WellFormed) (h : outcome (read r) s = (.ok c, t))
    (persists : c.Persists s u) (residual : c.kind.isModifier = false) :
    ∃ d v, outcome (read c.record) u = (.ok d, v) ∧ c.Renews d ∧ c.SameScope d := by
  have stands := (stands_read w.toOrdered.grounded h).keeps persists.keeps
  obtain ⟨d, v, again, renews⟩ :=
    stands.renews persists.ordered.grounded (by simp [stands.managed_of_residual residual])
  refine ⟨d, v, again, renews, ?_⟩
  obtain ⟨-, k, -, made⟩ := read_eq_ok.mp h
  obtain ⟨-, k', kind', made'⟩ := read_eq_ok.mp again
  obtain ⟨rfl, objects, -⟩ := fields_make made
  obtain rfl := Option.some.inj (c.kind.ofId?_id.symm.trans kind')
  rw [← objects] at made
  exact sameScope_of_make residual w made persists.keeps persists.ordered made'

/-- A modifier that stands is refused at the first of its targets, as long as they are marked. -/
theorem Stands.read_refused (stands : c.Stands u)
    (marks : ∀ id ∈ c.managed, u.owner id = .ok (some c.id)) (modifier : c.kind.isModifier = true) :
    ∃ id ∈ c.managed, ∃ v, outcome (read c.record) u =
      (.error (.ofSketch (.alreadyManaged id c.id)), v) ∧ u.Unchanged v := by
  obtain ⟨reference, id, rest, split⟩ := Kind.exists_target modifier stands.suits.accepted
  have targets : c.managed = id :: rest := by
    rw [stands.targets, Kind.targets, split]
  have mine : id ∈ c.managed := by simp [targets]
  have gathered : outcome (c.kind.gather u.numbered .standard c.objects) [] = (.ok (), []) := by
    revert modifier
    cases c.kind <;> intro modifier <;> first | rfl | cases modifier
  have taken : outcome (takeScope c.kind c.objects .standard) u.numbered =
      (.ok ⟨[], []⟩, u.numbered) := by
    rw [outcome_takeScope, gathered]
    rfl
  have refused : u.numbered.claim (id :: rest) ⟨u.constraintsMade⟩ =
      .error (.alreadyManaged id c.id) := Sketch.claim_of_owned (marks id mine)
  have failed := read_of_error (r := c.record) stands.known c.kind.ofId?_id
    (make_of_refused stands.suits.accepted split taken refused)
  exact ⟨id, mine, _, failed, (leaves_read c.record u).unchanged failed⟩

theorem read_refused (g : s.Grounded) (h : outcome (read r) s = (.ok c, t))
    (persists : c.Persists s u) (modifier : c.kind.isModifier = true) :
    ∃ id ∈ c.managed, ∃ v, outcome (read c.record) u =
      (.error (.ofSketch (.alreadyManaged id c.id)), v) ∧ u.Unchanged v :=
  ((stands_read g h).keeps persists.keeps).read_refused persists.marks modifier

/-- Once its marks are off, a constraint can be read again. -/
theorem read_released (g : s.Grounded) (h : outcome (read r) s = (.ok c, t))
    (persists : c.Persists s u) :
    ∃ d v, outcome (read c.record) (c.release u) = (.ok d, v) ∧ c.Renews d := by
  have shapes := c.sameShapes_release u
  refine ((stands_read g h).keeps (persists.keeps.trans shapes.keeps)).renews
    (persists.ordered.sameShapes shapes).grounded fun id hid => ?_
  obtain ⟨e, he, marked⟩ := Sketch.owner_eq_ok_iff.mp (persists.marks id hid)
  exact (Sketch.owner_release u c.managed c.id).mpr ⟨e, he, if_pos ⟨hid, marked⟩⟩

/-- What was read is written as it was, but for the old name of a kind. Read again, in the same
sketch or a later one, it gives a constraint of its own: the same one with new parameters in the
same places, or, of a modifier, none until the marks of the first are taken off. -/
theorem read_inverts_record (w : s.WellFormed) (h : outcome (read r) s = (.ok c, t)) :
    c.record = { r with
      typeId := if r.typeId = Kind.oldRadiusLength then Kind.radiusLength.id else r.typeId } ∧
    c.Persists s t ∧
    ∀ u, c.Persists s u →
      (c.kind.isModifier = false → ∃ d v, outcome (read c.record) u = (.ok d, v) ∧
        d.Installs u v ∧ c.Renews d ∧ c.SameScope d ∧ d.id ≠ c.id) ∧
      (c.kind.isModifier = true →
        (∃ id ∈ c.managed, ∃ v, outcome (read c.record) u =
          (.error (.ofSketch (.alreadyManaged id c.id)), v) ∧ u.Unchanged v) ∧
        ∃ d v, outcome (read c.record) (c.release u) = (.ok d, v) ∧
          d.Installs (c.release u) v ∧ c.Renews d ∧ d.id ≠ c.id) := by
  have g := w.toOrdered.grounded
  refine ⟨record_read h, (installs_read h).persists w.toOrdered, fun u persists =>
    ⟨fun residual => ?_, fun modifier => ⟨read_refused g h persists modifier, ?_⟩⟩⟩
  · obtain ⟨d, v, again, renews, scope⟩ := read_again w h persists residual
    exact ⟨d, v, again, installs_read again, renews, scope, ne_of_read persists.numbered again⟩
  · obtain ⟨d, v, again, renews⟩ := read_released g h persists
    exact ⟨d, v, again, installs_read again, renews, ne_of_read (u := c.release u)
      persists.numbered again⟩

/-- A segment, two points beside it, a curve and a circle. -/
def workpiece : Sketch Float :=
  (([.addSegment ⟨0, 0⟩ ⟨0, 1⟩, .addPoint ⟨1, 0⟩, .addPoint ⟨5, 5⟩,
    .addBezier ⟨0, 0⟩ ⟨1, 2⟩ ⟨3, 2⟩ ⟨4, 0⟩, .addCircle ⟨2, 2⟩ 3] : List (Act Float)).foldl Act.run
      Board.empty).sketch

theorem wellFormed_workpiece : workpiece.WellFormed := by
  refine Board.wellFormed_foldl fun act hact b => ?_
  simp only [List.mem_cons, List.not_mem_nil, or_false] at hact
  rcases hact with rfl | rfl | rfl | rfl | rfl <;> trivial

theorem exists_read {r : Record K} {s : Sketch K} {k : Kind}
    (read_ : (outcome (read r) s).1.toOption.map (·.kind) = some k) :
    ∃ c t, outcome (read r) s = (.ok c, t) ∧ c.kind = k := by
  obtain ⟨c, answer, kind⟩ := Option.map_eq_some_iff.mp read_
  obtain ⟨t, run⟩ := exists_of_toOption answer
  exact ⟨c, t, run, kind⟩

/-- The length of the circle's radius under its old name, the point on the curve, and its mirrored
image. -/
theorem read_inverts_record_workpiece : workpiece.WellFormed ∧
    (∃ c t, outcome (read ⟨"RaduisLength", [⟨12⟩], .empty⟩) workpiece = (.ok c, t) ∧
      c.record.typeId = "RadiusLength") ∧
    (∃ c t, outcome (read ⟨"PointOnBezier", [⟨4⟩, ⟨10⟩], .empty⟩) workpiece = (.ok c, t) ∧
      ∃ d v, outcome (read c.record) t = (.ok d, v) ∧ c.SameScope d ∧ d.id ≠ c.id) ∧
    ∃ c t, outcome (read ⟨"Mirror", [⟨3⟩, ⟨4⟩, ⟨5⟩], .empty⟩) workpiece = (.ok c, t) ∧
      (∃ id v, outcome (read c.record) t = (.error (.ofSketch (.alreadyManaged id c.id)), v)) ∧
      ∃ d v, outcome (read c.record) (c.release t) = (.ok d, v) := by
  have w := wellFormed_workpiece
  refine ⟨w, ?_, ?_, ?_⟩
  · obtain ⟨c, t, h, -⟩ := exists_read (s := workpiece) (k := .radiusLength)
      (r := ⟨"RaduisLength", [⟨12⟩], .empty⟩) (by decide +kernel)
    refine ⟨c, t, h, ?_⟩
    rw [(read_inverts_record w h).1]
    rfl
  · obtain ⟨c, t, h, kind⟩ := exists_read (s := workpiece) (k := .pointOnBezier)
      (r := ⟨"PointOnBezier", [⟨4⟩, ⟨10⟩], .empty⟩) (by decide +kernel)
    obtain ⟨-, persists, again⟩ := read_inverts_record w h
    obtain ⟨d, v, hd, -, -, scope, other⟩ := (again t persists).1 (by rw [kind]; rfl)
    exact ⟨c, t, h, d, v, hd, scope, other⟩
  · obtain ⟨c, t, h, kind⟩ := exists_read (s := workpiece) (k := .mirror)
      (r := ⟨"Mirror", [⟨3⟩, ⟨4⟩, ⟨5⟩], .empty⟩) (by decide +kernel)
    obtain ⟨-, persists, again⟩ := read_inverts_record w h
    obtain ⟨⟨id, -, v, refused, -⟩, d, u, hd, -⟩ := (again t persists).2 (by rw [kind]; rfl)
    exact ⟨c, t, h, ⟨id, v, refused⟩, d, u, hd⟩

end Constraint

end Drafting
