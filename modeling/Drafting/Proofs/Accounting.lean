import Drafting.Proofs.Session

namespace Drafting.Workbench

variable {K : Type} [Scalar K] [Written K]

/-- The parameters that are live are those of the objects and those that constraints brought along,
each of them in one place. -/
theorem params_accounted (ops : List (Operation K)) :
    let b := after ops
    let kept := b.sketch.fields ++ b.constraints.flatMap (·.constraint.auxiliary)
    kept.Nodup ∧ (∀ h, (b.sketch.param? h).isSome ↔ h ∈ kept) ∧
      b.sketch.paramCount = b.sketch.fields.length +
        (b.constraints.flatMap (·.constraint.auxiliary)).length := by
  have listed := (sound_after ops).listed
  have brought : (after ops).auxiliary =
      (after ops).constraints.flatMap (·.constraint.auxiliary) := by
    rw [auxiliary, stakes, stakesOf, List.flatMap_map]
    rfl
  rw [brought] at listed
  refine ⟨listed.distinct, listed.live, ?_⟩
  rw [Sketch.paramCount, listed.count, List.length_append]

end Drafting.Workbench
