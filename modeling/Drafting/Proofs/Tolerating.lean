import Drafting.Workbench.Assertion
import Drafting.Proofs.Comparing
import Drafting.Proofs.Session

namespace Drafting

open Double

theorem Constraint.residualValues_of_isModifier {K : Type} [Scalar K] [Written K]
    {c : Constraint K} (modifier : c.kind.isModifier = true) (s : Sketch K) :
    c.residualValues s = .ok [] := by
  have mirror : c.kind = .mirror := by
    cases kind : c.kind <;> rw [kind] at modifier <;> first | rfl | cases modifier
  unfold residualValues residuals
  rw [mirror]
  rfl

variable {c : Constraint Float} {s : Sketch Float} {tol : Float}

/-- The residuals can be collected, none is missing, and none is farther than `tol` from zero. -/
def Constraint.Within (c : Constraint Float) (s : Sketch Float) (tol : Float) : Prop :=
  ∃ values, c.valuesIn s = .ok values ∧ ∀ v ∈ values, v.isNaN = false ∧ v.abs ≤ tol

/-- What is missing is within no tolerance, as it is not even comparable. -/
theorem within_iff (v tol : Float) :
    v.isNaN = false ∧ v.abs ≤ tol ↔ Scalar.le (Scalar.abs v) tol = true := by
  have compared : Scalar.le (Scalar.abs v) tol = true ↔ v.abs ≤ tol := decide_eq_true_iff
  rw [compared]
  exact ⟨And.right, fun le => ⟨isNaN_abs v ▸ (le_iff.mp (compared.mpr le)).1, le⟩⟩

/-- Where the residuals are collected, they are within a tolerance just if the largest is. -/
theorem within_iff_maxAbs {values : List Float} (collected : c.valuesIn s = .ok values)
    (nonneg : 0 ≤ tol) : c.Within s tol ↔ Scalar.le (Scalar.maxAbs values) tol = true := by
  rw [maxAbs_le_iff (decide_eq_true nonneg)]
  constructor
  · rintro ⟨values', collected', near⟩ v hv
    cases collected.symm.trans collected'
    exact (within_iff v tol).mp (near v hv)
  · exact fun near => ⟨values, collected, fun v hv => (within_iff v tol).mpr (near v hv)⟩

/-- The check on one constraint looks at the largest residual. -/
theorem passed_residualsSatisfied_iff (nonneg : 0 ≤ tol) :
    (Audit.residualsSatisfied c s tol).passed = true ↔ c.Within s tol := by
  unfold Audit.residualsSatisfied
  cases collected : c.valuesIn s with
  | error e =>
    refine iff_of_false Bool.false_ne_true ?_
    rintro ⟨values, collected', -⟩
    cases collected.symm.trans collected'
  | ok values =>
    rw [within_iff_maxAbs collected nonneg]
    dsimp only
    split
    · rename_i near
      exact iff_of_true rfl near
    · rename_i far
      exact iff_of_false Bool.false_ne_true far

/-- A tolerance that something is no greater than is not missing. -/
theorem isNaN_of_nonneg (nonneg : 0 ≤ tol) : tol.isNaN = false :=
  (le_iff.mp (decide_eq_true nonneg)).2.1

theorem isNearZero_iff (nonneg : 0 ≤ tol) (v : Float) :
    Expectation.isNearZero tol v = true ↔ v.isNaN = false ∧ v.abs ≤ tol := by
  have missing : (Scalar.abs v).isNaN = v.isNaN := isNaN_abs v
  rw [within_iff, le_iff_not_lt (isNaN_of_nonneg nonneg), missing, Expectation.isNearZero,
    Bool.not_eq_true', Bool.or_eq_false_iff]
  rfl

theorem forall_mem_zipIdx {α : Type} {p : α → Prop} {as : List α} :
    (∀ x ∈ as.zipIdx, p x.1) ↔ ∀ a ∈ as, p a := by
  constructor
  · intro all a ha
    obtain ⟨i, hi⟩ := List.mem_iff_getElem?.mp ha
    exact all (a, i) (List.mem_zipIdx_iff_getElem?.mpr hi)
  · exact fun all x hx => all x.1 (List.fst_mem_of_mem_zipIdx hx)

theorem meet_eq_ok_iff {problem : Option String} :
    Expectation.meet problem = .ok () ↔ problem = none := by
  cases problem <;> simp [Expectation.meet]

/-- The expectation looks for one residual that is not near zero. -/
theorem nearZero_eq_ok_iff (nonneg : 0 ≤ tol) (ctx : String) :
    Expectation.nearZero c s tol ctx = .ok () ↔ c.Within s tol := by
  rw [Expectation.nearZero, bind_eq_ok]
  refine exists_congr fun values => and_congr_right fun _ => ?_
  rw [meet_eq_ok_iff, Option.map_eq_none_iff, List.find?_eq_none]
  refine (forall_mem_zipIdx (p := fun v => ¬(!Expectation.isNearZero tol v) = true)).trans ?_
  refine forall₂_congr fun v _ => ?_
  rw [Bool.not_eq_true, Bool.not_eq_false', isNearZero_iff nonneg]

namespace Workbench

variable {b : Workbench Float}

theorem failing?_eq_none_iff (nonneg : 0 ≤ tol) {n : NamedConstraint Float} :
    b.failing? tol n = .ok none ↔ n.constraint.Within b.sketch tol := by
  unfold failing?
  cases collected : n.constraint.valuesIn b.sketch with
  | error e =>
    refine iff_of_false (fun none => by cases none) ?_
    rintro ⟨values, collected', -⟩
    cases collected.symm.trans collected'
  | ok values =>
    rw [within_iff_maxAbs collected nonneg, le_iff_not_lt (isNaN_of_nonneg nonneg),
      ← Bool.or_eq_false_iff]
    dsimp only [bind, Except.bind]
    split
    · rename_i failing
      exact iff_of_false (fun none => by cases none) fun near => ne_true_of_eq_false near failing
    · rename_i near
      exact iff_of_true rfl (Bool.not_eq_true _ ▸ near)

/-- Each answer is there and says nothing just if nothing is left when the answers are gathered. -/
theorem exists_mapM_iff {α β ε : Type} {f : α → Except ε (Option β)} {as : List α} :
    (∃ os, as.mapM f = .ok os ∧ os.reduceOption = []) ↔ ∀ a ∈ as, f a = .ok none := by
  induction as with
  | nil => simp [pure, Except.pure]
  | cons a as ih =>
    rw [List.forall_mem_cons, ← ih]
    constructor
    · rintro ⟨os, answers, nothing⟩
      obtain ⟨o, rest, ho, answered, rfl⟩ := mapM_cons_eq_ok.mp answers
      cases o with
      | none => exact ⟨ho, rest, answered, nothing⟩
      | some b => cases nothing
    · rintro ⟨ha, os, answered, nothing⟩
      exact ⟨none :: os, mapM_cons_eq_ok.mpr ⟨none, os, ha, answered, rfl⟩, nothing⟩

/-- A workbench is satisfied just if there is nothing to say of any constraint. -/
theorem assertSatisfied_eq_ok_iff :
    b.assertSatisfied tol = .ok () ↔ ∀ n ∈ b.constraints, b.failing? tol n = .ok none := by
  rw [assertSatisfied, bind_eq_ok, ← exists_mapM_iff]
  refine exists_congr fun os => and_congr_right fun _ => ?_
  dsimp only
  cases os.reduceOption with
  | nil => exact iff_of_true rfl rfl
  | cons o rest => exact iff_of_false (fun h => by cases h) (List.cons_ne_nil o rest)

end Workbench

/-- With any tolerance of zero or more, infinity included, the check on a constraint passes just if
the expectation on it is met, just if its residuals are there and within the tolerance of zero, and
the assertion on a workbench holds just if that is so for each constraint in it. Residuals may be
any doubles; modifiers have none. -/
theorem tolerance_checks_agree (c : Constraint Float) (s : Sketch Float) (b : Workbench Float)
    (tol : Float) (nonneg : 0 ≤ tol) :
    ((Audit.residualsSatisfied c s tol).passed = true ↔ c.Within s tol) ∧
    (∀ ctx, Expectation.nearZero c s tol ctx = .ok () ↔ c.Within s tol) ∧
    (b.assertSatisfied tol = .ok () ↔ ∀ n ∈ b.constraints, n.constraint.Within b.sketch tol) ∧
    (c.kind.isModifier = true → c.valuesIn s = .ok []) := by
  refine ⟨passed_residualsSatisfied_iff nonneg, nearZero_eq_ok_iff nonneg, ?_, fun modifier => ?_⟩
  · rw [Workbench.assertSatisfied_eq_ok_iff]
    exact forall₂_congr fun n _ => Workbench.failing?_eq_none_iff nonneg
  · rw [Constraint.valuesIn, Constraint.residualValues_of_isModifier modifier]
    rfl

/-- One residual that is infinite and one that is missing. -/
def faraway : List (Operation Float) :=
  [.point "p" ⟨0, 0⟩, .point "q" ⟨3, 4⟩,
    .constrainWith "far" .distancePP ["p", "q"] (.ofList [("distance", .number 1e200)]),
    .constrainWith "lost" .distancePP ["p", "q"] (.ofList [("distance", .text "five")])]

theorem tolerance_checks_agree_faraway :
    ∃ far lost, (Workbench.after faraway).constraints = [far, lost] ∧
      far.constraint.Within (Workbench.after faraway).sketch (1 / 0) ∧
      ¬lost.constraint.Within (Workbench.after faraway).sketch (1 / 0) ∧
      (Workbench.after faraway).assertSatisfied (1 / 0) ≠ .ok () := by
  obtain ⟨far, lost, listed⟩ := List.length_eq_two.mp
    (show (Workbench.after faraway).constraints.length = 2 by decide +kernel)
  have passed : (Workbench.after faraway).constraints.map (fun n => (Audit.residualsSatisfied
      n.constraint (Workbench.after faraway).sketch (1 / 0)).passed) = [true, false] := by
    decide +kernel
  rw [listed] at passed
  have agree (n : NamedConstraint Float) := tolerance_checks_agree n.constraint
    (Workbench.after faraway).sketch (Workbench.after faraway) (1 / 0) (by decide +kernel)
  have infinite : far.constraint.Within (Workbench.after faraway).sketch (1 / 0) :=
    (agree far).1.mp (List.cons.inj passed).1
  have missing : ¬lost.constraint.Within (Workbench.after faraway).sketch (1 / 0) := fun near =>
    Bool.false_ne_true ((List.cons.inj (List.cons.inj passed).2).1 ▸ (agree lost).1.mpr near)
  exact ⟨far, lost, listed, infinite, missing,
    fun met => missing ((agree lost).2.2.1.mp met lost (by simp [listed]))⟩

end Drafting
