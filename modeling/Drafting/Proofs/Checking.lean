import Drafting.Workbench.Report
import Drafting.Proofs.Action

namespace Drafting

variable {K : Type} [Scalar K] [Written K] {s : Sketch K}

namespace Audit

/-- A constraint that is made for the check is released again before it ends. -/
theorem unchanged_roundTrip (c : Constraint K) (keyed : s.Keyed) :
    s.Unchanged ((roundTrip c).run s).2 := by
  unfold roundTrip
  dsimp only
  cases Record.read? (K := K) c.record.write with
  | none => exact .refl s
  | some stored =>
    dsimp only
    split
    · exact .refl s
    · have leaves := Constraint.leaves_read stored s
      have run : (Constraint.read stored).run.run s = outcome (Constraint.read stored) s := rfl
      rw [run_bind_snd, run]
      cases h : outcome (Constraint.read stored) s with
      | mk answer t =>
        rw [h] at leaves
        cases answer with
        | ok restored => exact leaves.release keyed
        | error e => exact leaves

theorem unchanged_runAll (c : Constraint K) (tol : K) (keyed : s.Keyed) :
    s.Unchanged ((runAll c tol).run s).2 := by
  unfold runAll
  rw [run_get_snd, run_bind_snd, run_pure_snd]
  exact unchanged_roundTrip c keyed

theorem unchanged_runEach (cs : List (Constraint K)) (tol : K) (keyed : s.Keyed) :
    s.Unchanged ((cs.mapM fun c => runAll c tol).run s).2 := by
  induction cs generalizing s with
  | nil => exact .refl s
  | cons c cs ih =>
    have first := unchanged_runAll c tol keyed
    rw [List.mapM_cons, run_bind_snd, run_bind_snd, run_pure_snd]
    exact first.trans (ih (first.keyed keyed))

end Audit

namespace Workbench

theorem evolves_check (name : String) (tol : K) : Leads Evolves (check name tol) := by
  refine Evolves.bind (evolves_ask _) fun c => ?_
  exact evolves_onSketch fun s o => Audit.unchanged_runAll c tol o.keyed

/-- All checks together touch nothing but the sketch. -/
theorem run_checkAll (tol : K) (b : Workbench K) :
    ((checkAll tol).run b).2 = { b with sketch :=
      (((b.constraints.map (·.constraint)).mapM fun c => Audit.runAll c tol).run b.sketch).2 } := by
  simp only [checkAll, StateT.run]
  generalize (b.constraints.map (·.constraint)).mapM (fun c => Audit.runAll c tol) = checks
  rfl

theorem run_report (tol : K) (b : Workbench K) :
    ((report tol).run b).2 = ((checkAll tol).run b).2 := by
  unfold report
  rw [run_bind_snd, run_get_snd, run_pure_snd]

/-- All checks together are no change, since each leaves the sketch as it shows. -/
theorem evolves_checkAll (tol : K) (b : Workbench K) : Evolves b ((checkAll tol).run b).2 := by
  intro sound
  have same := Audit.unchanged_runEach (b.constraints.map (·.constraint)) tol sound.ordered.keyed
  rw [run_checkAll]
  exact .single (.keep same rfl)

theorem evolves_report (tol : K) (b : Workbench K) : Evolves b ((report tol).run b).2 := by
  rw [run_report]
  exact evolves_checkAll tol b

end Workbench

end Drafting
