import Drafting.Proofs.Outliving
import Drafting.Proofs.Pairing
import Drafting.Proofs.Renaming
import Drafting.Proofs.Rereading

namespace Drafting

open Constant (Raw)

variable {K : Type} [Scalar K]

namespace Constraint

variable {s t u v : Sketch K} {c : Constraint K} {k : Kind} {objects : List ObjectId}

/-- The residuals have values in every sketch, the same ones where the parameters have. -/
theorem Formed.residualValues_congr [Written K] (f : c.Formed s)
    (same : ∀ h ∈ c.params, u.value h = v.value h) :
    ∃ xs, c.residualValues u = .ok xs ∧ c.residualValues v = .ok xs := by
  obtain ⟨make, spans⟩ := Kind.exists_spans (K := K) f.params
  have residuals : c.residuals = .ok (make c.resolved) :=
    residuals_eq ⟨rfl, rfl⟩ (spans.residuals c.resolved)
  refine ⟨(make c.resolved).map (·.evaluate u.value), residualValues_of residuals, ?_⟩
  rw [residualValues_of residuals]
  refine congrArg Except.ok (List.map_congr_left fun p hp => ?_)
  exact (Polynomial.evaluate_congr (spans.within c.resolved p hp) same).symm

theorem Makes.aging (m : Makes k objects s c t) : Sketch.Aging s t := by
  obtain ⟨made, constants, o, table, internal, h, rfl⟩ := m.make
  have aging := aging_make k objects constants o s
  rwa [h] at aging

/-- A parameter in the scope belongs to an object, or the constraint brought it along. -/
theorem Makes.within (m : Makes k objects s c t) (o : s.Ordered) :
    ∀ h ∈ c.params, h ∈ c.auxiliary ∨ h ∈ s.fields := by
  intro h hh
  cases residual : k.isModifier with
  | false =>
    have fits := m.fits o.grounded residual
    obtain ⟨_, _, ps, qs, -, added, added', places⟩ :=
      Pairing.fills_gather (P := .kept o.counted o.counted) c.options residual fits
        (Pairing.objects_kept o.counted o.counted (.refl s) fits)
    obtain ⟨all, -⟩ := (m.realized residual added).2.paired places (m.realized residual added').2
    rcases List.forall₂_same.mp all h hh with ⟨-, field⟩ | new
    · exact .inr field
    · exact .inl (List.of_mem_zip new).1
  | true =>
    -- a modifier has no scope
    have f := m.formed o.grounded
    have none := f.params
    rw [m.kind] at none
    cases k with
    | mirror =>
      rw [List.eq_nil_of_length_eq_zero none] at hh
      cases hh
    | _ => cases residual

end Constraint

namespace Board

open Constraint (Makes)

variable {b b' : Board K} {c : Constraint K} {t : Sketch K} {k : Kind} {objects : List ObjectId}

/-- Every parameter in the scope was given, and to no other constraint. -/
structure Confined (c : Constraint K) (b : Board K) : Prop where
  ordered : b.sketch.Ordered
  given : ∀ h ∈ c.params, b.sketch.params.Given h
  others : ∀ k ∈ b.stakes, k.id ≠ c.id → ∀ h ∈ c.params, h ∉ k.auxiliary

omit [Scalar K] in
/-- Later constraints bring along what was not given before. -/
theorem Steps.confined {lost : List Handle} (step : Steps lost b b') (confined : Confined c b) :
    Confined c b' where
  ordered := step.sketch.ordered confined.ordered
  given h hh := step.aging.given h (confined.given h hh)
  others k hk ne h hh := by
    rcases step.mem_stakes hk with old | ⟨d, rfl, installs⟩
    · exact confined.others k old ne h hh
    · exact fun mine => step.fresh installs h mine (confined.given h hh)

theorem confined_make (settled : b.Settled) (m : Makes k objects b.sketch c t) :
    Confined c (b.keep (some c) t) := by
  have step : Steps [] b (b.keep (some c) t) := steps_keep m.installs m.aging
  have given : ∀ h ∈ c.params, t.params.Given h := by
    intro h hh
    rcases m.within settled.ordered h hh with mine | field
    · exact Store.given_of_live (m.installs.params.live h mine)
    · exact m.aging.given h (settled.given h field)
  refine ⟨step.sketch.ordered settled.ordered, given, fun k hk ne h hh theirs => ?_⟩
  have old : k ∈ b.stakes := by
    simp only [stakes, keep, Option.toList_some, List.map_append, List.mem_append] at hk
    refine hk.resolve_right fun last => ne ?_
    rw [List.mem_singleton.mp last]
    rfl
  have apart := settled.apart k old h theirs
  rcases m.within settled.ordered h hh with mine | field
  · exact step.fresh m.installs h mine apart.given
  · exact apart.other field

variable [Written K]

theorem Confined.after (confined : Confined c b) (moves : List (Move K)) :
    Confined c (b.after moves) := by
  induction moves generalizing b with
  | nil => exact confined
  | cons move moves ih =>
    refine ih ?_
    rcases steps_move confined.ordered move with ⟨lost, step⟩ | ⟨sketch, stakes⟩
    · exact step.confined confined
    · obtain ⟨ordered, given, others⟩ := confined
      constructor <;> simpa only [sketch, stakes]

end Board

def Act.Builds : Act K → Prop
  | .make .. | .create .. | .consistencyFor _ | .read _ | .readVia .. => True
  | _ => False

namespace Board

variable [Written K] {b b' : Board K} {c : Constraint K}

theorem shows_run (o : b.sketch.Ordered) {act : Act K} (builds : act.Builds) :
    b.sketch.Unchanged (act.run b).sketch ∨
      ∃ d : Constraint K, d.Installs b.sketch (act.run b).sketch := by
  cases act with
  | make kind objects constants options =>
    exact (Constraint.leaves_make kind objects constants options b.sketch).shows
  | create kind objects => exact (Constraint.leaves_create kind objects o).shows
  | consistencyFor object =>
    have leaves := Constraint.leavesAny_consistencyFor object b.sketch
    simp only [Act.run, keep]
    cases run : outcome (Constraint.consistencyFor object) b.sketch with
    | mk answer t =>
      rw [run] at leaves
      match answer with
      | .ok (some d) => exact .inr ⟨d, leaves⟩
      | .ok none => exact .inl leaves
      | .error e => exact .inl leaves
  | read r => exact (Constraint.leaves_read r b.sketch).shows
  | readVia index r => exact (Constraint.leaves_readVia index r b.sketch).shows
  | _ => cases builds

/-- What is done on the same sketch with other constraints than the one of the number: an attempt to
make one, or the release of one. Collecting the residuals of any changes nothing. -/
inductive Errand (number : ConstraintId) (b : Board K) : Board K → Prop where
  | build (act : Act K) (builds : act.Builds) : Errand number b (act.run b)
  | collect (d : Constraint K) (ps : List (Polynomial K)) (collected : d.residuals = .ok ps) :
    Errand number b b
  | release (d : Constraint K) (made : d ∈ b.made) (other : d.id ≠ number) :
    Errand number b ((Act.releaseConstraint d).run b)

theorem Errand.confined (errand : Errand c.id b b') (confined : Confined c b) : Confined c b' := by
  cases errand with
  | build act builds => exact (steps_run confined.ordered act).confined confined
  | collect d ps collected => exact confined
  | release d made other => exact (steps_run confined.ordered _).confined confined

/-- An errand leaves the parameters in the scope as they are. -/
theorem Errand.param? (errand : Errand c.id b b') (confined : Confined c b) :
    ∀ h ∈ c.params, b'.sketch.param? h = b.sketch.param? h := by
  intro h hh
  cases errand with
  | build act builds =>
    have step := steps_run confined.ordered act
    rcases shows_run confined.ordered builds with same | ⟨d, installs⟩
    · exact same.params h
    · exact installs.params.others h fun new =>
        step.fresh installs h new (confined.given h hh)
  | collect d ps collected => rfl
  | release d made other =>
    have apart := confined.others d.stake (List.mem_map_of_mem made) other h hh
    exact (d.param?_release b.sketch h).trans (if_neg apart)

/-- So do any number of errands. -/
theorem param?_errands (errands : Relation.ReflTransGen (Errand c.id) b b')
    (confined : Confined c b) :
    Confined c b' ∧ ∀ h ∈ c.params, b'.sketch.param? h = b.sketch.param? h := by
  induction errands with
  | refl => exact ⟨confined, fun _ _ => rfl⟩
  | tail _ errand ih =>
    obtain ⟨before, same⟩ := ih
    exact ⟨errand.confined before, fun h hh => (errand.param? before h hh).trans (same h hh)⟩

end Board

open Constraint (Makes) in
/-- The residuals of a constraint depend on the values of its parameters and on nothing else of a
sketch. Whatever was done before and since it was made: as long as other constraints are built and
released and residuals are collected, in any order, its residuals keep their values. -/
theorem Board.residuals_confined [Written K] {s t : Sketch K} (w : s.WellFormed)
    (first later : List (Move K)) {c : Constraint K} {k : Kind} {objects : List ObjectId}
    (made : Makes k objects ((⟨s, []⟩ : Board K).after first).sketch c t) (table : Table (Raw K)) :
    let b := ((⟨s, []⟩ : Board K).after first).keep (some c) t
    let d := { c with constants := table }
    (∀ u v : Sketch K, (∀ h ∈ c.params, u.value h = v.value h) →
      ∃ xs, d.residualValues u = .ok xs ∧ d.residualValues v = .ok xs) ∧
    ∀ b', Relation.ReflTransGen (Errand c.id) (b.after later) b' →
      ∃ xs, d.residualValues (b.after later).sketch = .ok xs ∧
        d.residualValues b'.sketch = .ok xs := by
  intro b d
  have start : (⟨s, []⟩ : Board K).Settled :=
    ⟨w.toOrdered, fun h field => Store.given_of_live (w.live h field), by simp [stakes],
      by simp [stakes], by simp [stakes], .nil⟩
  have settled := (settled_after start first).1
  have formed := (made.formed settled.ordered.grounded).withConstants table
  refine ⟨fun u v same => formed.residualValues_congr same, fun b' errands => ?_⟩
  have confined := (confined_make settled made).after later
  obtain ⟨-, same⟩ := param?_errands errands confined
  refine formed.residualValues_congr fun h hh => ?_
  rw [Sketch.value, Sketch.value, same h hh]

open Constraint in
/-- Two points are put on a curve, and the second one is taken off it again. -/
theorem Board.residuals_confined_workpiece : workpiece.WellFormed ∧ ∃ c t d u xs,
    outcome (make .pointOnBezier [⟨4⟩, ⟨10⟩] .empty .standard) workpiece = (.ok c, t) ∧
    outcome (make .pointOnBezier [⟨5⟩, ⟨10⟩] .empty .standard) t = (.ok d, u) ∧
    c.residualValues t = .ok xs ∧ c.residualValues u = .ok xs ∧
    c.residualValues (d.release u) = .ok xs := by
  have w := wellFormed_workpiece
  have g := w.toOrdered.grounded
  have fits (n : Nat) (point : workpiece.IsA (.only .point) ⟨n⟩) :
      workpiece.Fits Kind.pointOnBezier.signature [⟨n⟩, ⟨10⟩] :=
    .cons point (.cons ⟨_, rfl, rfl⟩ .nil)
  obtain ⟨c, t, first⟩ := (exists_make_iff .empty .standard g rfl).mpr (fits 4 ⟨_, rfl, rfl⟩)
  have shapes := sameShapes_make first
  obtain ⟨d, u, second⟩ := (exists_make_iff .empty .standard (g.sameShapes shapes) rfl).mpr
    (shapes.keeps.fits (fits 5 ⟨_, rfl, rfl⟩))
  have other : d.id ≠ c.id := by
    have before := (Makes.given _ _ first).installs.numbered.2
    have later := (Makes.given _ _ second).installs.numbered.1
    intro same
    rw [same] at later
    exact Nat.lt_irrefl _ (Nat.lt_of_lt_of_le before later)
  obtain ⟨-, keeps⟩ := residuals_confined w [] [] (.given _ _ first) c.constants
  have build : Errand c.id (⟨t, [c]⟩ : Board Float) _ :=
    .build (.make .pointOnBezier [⟨5⟩, ⟨10⟩] .empty .standard) trivial
  simp only [Act.run, second] at build
  have release : Errand c.id (⟨u, [c, d]⟩ : Board Float) _ := .release d (by simp) other
  obtain ⟨xs, old, new⟩ := keeps _ (.single build)
  obtain ⟨_, old', last⟩ := keeps _ (.tail (.single build) release)
  cases old.symm.trans old'
  exact ⟨w, c, t, d, u, xs, first, second, old, new, last⟩

end Drafting
