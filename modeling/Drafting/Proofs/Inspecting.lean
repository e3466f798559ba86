import Drafting.Proofs.Session

namespace Drafting.Workbench

variable {K : Type} {b : Workbench K}

/-- Nothing that is seen of the workbench has changed. -/
structure Same (b b' : Workbench K) : Prop where
  sketch : b.sketch.Unchanged b'.sketch
  names : b'.names = b.names
  constraints : b'.constraints = b.constraints
  history : b'.history = b.history
  autoCheck : b'.autoCheck = b.autoCheck

theorem same_of_unchanged {s : Sketch K} (h : b.sketch.Unchanged s) :
    Same b { b with sketch := s } := ⟨h, rfl, rfl, rfl, rfl⟩

variable [Scalar K] [Written K]

/-- What a check makes it releases, and a release is exact wherever objects are found by their
numbers, whether or not marks and constraints agree. -/
theorem same_check (keyed : b.sketch.Keyed) (name : String) (tol : K) :
    Same b (outcome (check name tol) b).2 := by
  unfold check
  refine ask_bind_of (P := fun r => Same b r.2) (fun c _ => ?_) (fun e _ => ?_)
  · rw [outcome_onSketch]
    exact same_of_unchanged (Audit.unchanged_runAll c tol keyed)
  · exact same_of_unchanged (.refl b.sketch)

theorem same_checkAll (keyed : b.sketch.Keyed) (tol : K) : Same b ((checkAll tol).run b).2 := by
  rw [run_checkAll]
  exact same_of_unchanged (Audit.unchanged_runEach _ tol keyed)

/-- The checks of one constraint, those of all of them, and the report leave the workbench as it is,
whatever state it is in. -/
theorem checks_look (keyed : b.sketch.Keyed) (tol : K) :
    (∀ name, Same b (outcome (check name tol) b).2) ∧ Same b ((checkAll tol).run b).2 ∧
      Same b ((report tol).run b).2 := by
  have all := same_checkAll keyed tol
  refine ⟨fun name => same_check keyed name tol, all, ?_⟩
  rw [run_report]
  exact all

/-- A point is mirrored, and its mark is then taken off. -/
def unmarked : Workbench Float :=
  let b := after [.segment "l" ⟨0, 0⟩ ⟨0, 1⟩, .point "a" ⟨5, 5⟩, .point "b" ⟨6, 6⟩,
    .constrain "own" .mirror ["l", "a", "b"]]
  { b with sketch := b.sketch.release [⟨5⟩] ⟨0⟩ }

def emptied : Workbench Float := { unmarked with sketch := .empty }

def verdicts (b : Workbench Float) : Option (List (String × Bool)) :=
  (outcome (check "own" 0) b).1.toOption.map fun vs => vs.map fun v => (v.check, v.passed)

/-- The mirror is accepted a second time, and nothing of that is left. -/
theorem checks_look_unmarked :
    unmarked.sketch.Keyed ∧ emptied.sketch.Keyed ∧
    (verdicts unmarked).map (·.getLast?) = some (some ("round_trip", false)) ∧
    Same unmarked (outcome (check "own" 0) unmarked).2 ∧
    Same emptied ((checkAll 0).run emptied).2 := by
  have keyed : unmarked.sketch.Keyed :=
    ((sound_after _).ordered.sameShapes (Sketch.sameShapes_release _ _ _)).keyed
  have none : emptied.sketch.Keyed := Sketch.Ordered.empty.keyed
  exact ⟨keyed, none, by decide +kernel, (checks_look keyed 0).1 "own", (checks_look none 0).2.1⟩

end Drafting.Workbench
