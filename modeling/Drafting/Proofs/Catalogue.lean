import Drafting.Proofs.Making
import Drafting.Proofs.Measuring
import Drafting.Proofs.Spanning
import Drafting.Workbench

namespace Drafting

open Constant (Definition Raw Resolved)

variable {K : Type} [Scalar K]

namespace Constraint

variable [Written K] {s t : Sketch K} {c : Constraint K} {k : Kind} {objects : List ObjectId}

/-- Creating is making without constants, and then measuring them. -/
theorem create_eq_ok : outcome (create k objects) s = (.ok c, t) ↔
    ∃ made, outcome (make k objects .empty .standard) s = (.ok made, t) ∧
      made.initConstants t = .ok c := by
  unfold create
  rw [outcome_bind_eq_ok]
  constructor
  · intro ⟨made, u, hm, h⟩
    rw [outcome_bind_ok (outcome_get u)] at h
    cases measured : made.initConstants u with
    | ok c =>
      rw [measured] at h
      cases h
      exact ⟨made, hm, measured⟩
    | error e =>
      rw [measured] at h
      cases h
  · intro ⟨made, hm, measured⟩
    refine ⟨made, t, hm, ?_⟩
    rw [outcome_bind_ok (outcome_get t), measured]
    rfl

/-- A table of the constants that a kind defines and of no others, each measured. -/
def Measured (k : Kind) (o : Options K) (table : Table (Raw K)) : Prop :=
  List.Forall₂ (fun d e => e.1 = d.name ∧ ∃ v, v.form = d.form ∧ e.2 = rounded o v)
    k.definitions table.entries

omit [Scalar K] in
theorem Measured.names {table : Table (Raw K)} {o : Options K} (m : Measured k o table) :
    table.names = k.definitions.map (·.name) :=
  map_eq_of_forall₂ m fun _ _ h => h.1

omit [Scalar K] in
theorem Measured.given {table : Table (Raw K)} {o : Options K} (m : Measured k o table) :
    ∀ d ∈ k.definitions, ∃ raw, table.get? d.name = some raw := by
  intro d hd
  have named : d.name ∈ table.names := by
    rw [m.names]
    exact List.mem_map_of_mem hd
  obtain ⟨⟨name, raw⟩, he, same⟩ := List.mem_map.mp named
  exact ⟨raw, table.get?_of_mem (same ▸ he)⟩

/-- Measuring a new constraint gives each constant of its kind, and only those. -/
theorem exists_initConstants (g : s.Grounded) (fits : s.Fits c.kind.signature c.objects)
    (empty : c.constants = .empty) :
    ∃ table, c.initConstants s = .ok { c with constants := table } ∧
      Measured c.kind c.options table := by
  unfold initConstants
  by_cases none : c.kind.definitions.isEmpty
  · refine ⟨c.constants, by rw [if_pos none]; rfl, ?_⟩
    unfold Measured
    rw [List.isEmpty_iff.mp none, empty]
    exact .nil
  · obtain ⟨values, measured, names⟩ := Kind.exists_measure g fits
    refine ⟨.ofList (values.map fun v => (v.1, rounded c.options v.2)),
      by rw [if_neg none, measured]; rfl, ?_⟩
    unfold Measured
    rw [Table.entries_ofList (Kind.sorted_of_names names (rounded c.options))]
    exact List.forall₂_map_right_iff.mpr
      (names.imp fun d v hv => ⟨hv.1, v.2, hv.2, rfl⟩)

/-- A constraint whose constants are measured is made wherever one with given constants is. -/
theorem create_of_fits (g : s.Grounded) (hk : k.isModifier = false)
    (fits : s.Fits k.signature objects) :
    ∃ made table t, outcome (make k objects .empty .standard) s = (.ok made, t) ∧
      outcome (create k objects) s = (.ok { made with constants := table }, t) ∧
      Measured k .standard table := by
  obtain ⟨made, t, h⟩ := (exists_make_iff .empty .standard g hk).mpr fits
  obtain ⟨rfl, rfl, empty, options⟩ := fields_make h
  have same := sameShapes_make h
  obtain ⟨table, measured, values⟩ :=
    exists_initConstants (g.sameShapes same) (same.keeps.fits fits) empty
  exact ⟨made, table, t, h, create_eq_ok.mpr ⟨made, h, measured⟩, options ▸ values⟩

def collect (c : Constraint K) (out : List (Polynomial K)) :
    Except ConstraintError (List (Polynomial K)) := do
  pure (out ++ (← c.residuals))

/-- The residuals of all constraints are collected from one after the other. -/
theorem collect_all (cs : List (NamedConstraint K)) (out : List (Polynomial K)) :
    (cs.foldlM (fun out (c : NamedConstraint K) => c.constraint.collect out) out).mapError
        WorkbenchError.constraint =
      (fun pss => out ++ pss.flatten) <$>
        cs.mapM fun (c : NamedConstraint K) => c.constraint.residuals.mapError .constraint := by
  induction cs generalizing out with
  | nil => exact congrArg Except.ok (List.append_nil out).symm
  | cons c cs ih =>
    rw [List.foldlM_cons, List.mapM_cons, collect]
    cases c.constraint.residuals with
    | error e => rfl
    | ok ps =>
      refine (ih (out ++ ps)).trans ?_
      cases cs.mapM fun (c : NamedConstraint K) =>
          c.constraint.residuals.mapError WorkbenchError.constraint with
      | error e => rfl
      | ok pss => exact congrArg Except.ok (List.append_assoc out ps pss.flatten)

/-- A workbench collects residuals constraint by constraint and stops at the first error. -/
theorem residuals_eq_collect (b : Workbench K) :
    b.residuals =
      (b.constraints.foldlM (fun out (c : NamedConstraint K) => c.constraint.collect out)
        []).mapError .constraint := by
  rw [collect_all, Workbench.residuals]
  cases b.constraints.mapM fun (c : NamedConstraint K) =>
    c.constraint.residuals.mapError WorkbenchError.constraint <;> rfl

/-- Whatever its constants, a constraint has as many residuals as its kind, over its scope. -/
theorem Formed.collect (f : c.Formed s) (out : List (Polynomial K)) :
    ∃ ps, c.collect out = .ok (out ++ ps) ∧ ps.length = c.kind.residualCount ∧
      ∀ p ∈ ps, ∀ h ∈ p.params, h ∈ c.params := by
  obtain ⟨make, spans⟩ := Kind.exists_spans (K := K) f.params
  have residuals : c.residuals = .ok (make c.resolved) := by
    rw [Constraint.residuals, Kind.residuals, spans.residuals]
  refine ⟨make c.resolved, bind_eq_ok.mpr ⟨_, residuals, rfl⟩, spans.count _, fun p hp => ?_⟩
  exact (spans.within _ p hp).params

/-- Of the constants only those that the kind defines are looked up. -/
theorem Formed.looks (f : c.Formed s) {r : Resolved K}
    (agree : ∀ d ∈ c.kind.definitions, d.Agrees r c.resolved) :
    c.kind.residuals c.params r = c.residuals := by
  obtain ⟨make, spans⟩ := Kind.exists_spans (K := K) f.params
  rw [Constraint.residuals, Kind.residuals, Kind.residuals, spans.residuals, spans.residuals,
    spans.looks r c.resolved agree]

def Built (k : Kind) (objects : List ObjectId) (s : Sketch K) (c : Constraint K) : Prop :=
  (∃ constants o t, outcome (make k objects constants o) s = (.ok c, t)) ∨
    ∃ t, outcome (create k objects) s = (.ok c, t)

theorem Built.formed (g : s.Grounded) (built : Built k objects s c) : c.kind = k ∧ c.Formed s := by
  rcases built with ⟨constants, o, t, h⟩ | ⟨t, h⟩
  · exact ⟨(fields_make h).1, formed_make g h⟩
  · obtain ⟨made, hm, measured⟩ := create_eq_ok.mp h
    obtain ⟨table, rfl⟩ := initConstants_eq_ok measured
    exact ⟨(fields_make hm).1, (formed_make g hm).withConstants table⟩

/-- The tables of the catalogue agree, for every kind with residuals. It is made of the objects that
fit its signature and of no others; its residuals are as many as they should be and stay within its
scope, whatever was collected before and whatever becomes of its constants; and its own constants,
once measured, are all there and the only ones that count. -/
theorem tables_agree (g : s.Grounded) (hk : k ≠ .mirror) (objects : List ObjectId) :
    (∀ constants o, (∃ c t, outcome (make k objects constants o) s = (.ok c, t)) ↔
      s.Fits k.signature objects) ∧
    ((∃ c t, outcome (create k objects) s = (.ok c, t)) ↔ s.Fits k.signature objects) ∧
    (∀ c, Built k objects s c → ∀ constants out,
      ∃ ps, { c with constants := constants }.collect out = .ok (out ++ ps) ∧
        ps.length = k.residualCount ∧ ∀ p ∈ ps, ∀ h ∈ p.params, h ∈ c.params) ∧
    (∀ c t, outcome (create k objects) s = (.ok c, t) →
      Measured k .standard c.constants ∧
      (∀ d ∈ k.definitions, ∃ v, c.resolved.get? d.name = some v ∧ v.form = d.form) ∧
      ∀ r, (∀ d ∈ k.definitions, d.Agrees r c.resolved) →
        k.residuals c.params r = c.residuals) := by
  have residual : k.isModifier = false := by
    cases k <;> first | rfl | exact absurd rfl hk
  have fits_of_create {c : Constraint K} {t : Sketch K}
      (h : outcome (create k objects) s = (.ok c, t)) : s.Fits k.signature objects := by
    obtain ⟨made, hm, -⟩ := create_eq_ok.mp h
    exact (exists_make_iff .empty .standard g residual).mp ⟨made, t, hm⟩
  refine ⟨fun constants o => exists_make_iff constants o g residual, ⟨?_, ?_⟩, ?_, ?_⟩
  · exact fun ⟨c, t, h⟩ => fits_of_create h
  · intro fits
    obtain ⟨made, table, t, -, h, -⟩ := create_of_fits g residual fits
    exact ⟨_, t, h⟩
  · intro c built constants out
    obtain ⟨rfl, formed⟩ := built.formed g
    exact (formed.withConstants constants).collect out
  · intro c t h
    obtain ⟨made, table, u, hm, hc, measured⟩ := create_of_fits g residual (fits_of_create h)
    obtain ⟨rfl, rfl⟩ : c = { made with constants := table } ∧ t = u := by
      rw [h] at hc
      cases hc
      exact ⟨rfl, rfl⟩
    obtain ⟨rfl, -⟩ := fields_make hm
    refine ⟨measured, fun d hd => ?_, fun r agree => ?_⟩
    · obtain ⟨raw, given⟩ := measured.given d hd
      exact ⟨_, Constant.get?_resolve made.kind.names_rising hd given, d.form_resolve raw⟩
    · exact ((formed_make g hm).withConstants table).looks agree

def besideLine : Sketch Float :=
  ((Sketch.addSegment ⟨0, 0⟩ ⟨1, 0⟩).run ((Sketch.addPoint ⟨0, 1⟩).run .empty).2).2

theorem tables_agree_besideLine : besideLine.Grounded ∧ Kind.distancePL ≠ .mirror ∧
    ∃ c t, outcome (create .distancePL [⟨1⟩, ⟨4⟩]) besideLine = (.ok c, t) ∧
      Measured .distancePL .standard c.constants ∧
      ∃ ps, c.collect [] = .ok ps ∧ ps.length = 1 := by
  have drawn := (Sketch.drawn_addPoint (K := Float) ⟨0, 1⟩ .empty).1
  have ordered := (drawn.trans (Sketch.drawn_addSegment ⟨0, 0⟩ ⟨1, 0⟩ (drawn.ordered .empty)))
  have g : besideLine.Grounded := (ordered.ordered .empty).grounded
  have fits : besideLine.Fits Kind.distancePL.signature [⟨1⟩, ⟨4⟩] :=
    Sketch.fits_two.mpr ⟨_, _, rfl, ⟨_, rfl, rfl⟩, ⟨_, rfl, rfl⟩⟩
  obtain ⟨-, created, collected, known⟩ := tables_agree g (k := .distancePL) (by decide) [⟨1⟩, ⟨4⟩]
  obtain ⟨c, t, h⟩ := created.mpr fits
  obtain ⟨ps, hps, count, -⟩ := collected c (.inr ⟨t, h⟩) c.constants []
  exact ⟨g, by decide, c, t, h, (known c t h).1, ps, hps, count⟩

end Constraint

end Drafting
