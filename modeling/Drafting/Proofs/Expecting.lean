import Drafting.Proofs.Scaling
import Drafting.Proofs.Tolerating

namespace Drafting

namespace Double

open Float.Model (UnpackedFloat Format)
open Float.Model.UnpackedFloat

/-- Packing may turn a finite number into an infinity, but makes none missing. -/
theorem isNaN_unpack_pack (u : UnpackedFloat) :
    (unpack .binary64 (pack .binary64 u)).isNaN = u.isNaN := by
  cases u with
  | notANumber => rfl
  | infinity s | zero s => cases s <;> rfl
  | finite s m e pos =>
    rcases unpack_pack_finite (s := s) (m := m) (e := e) with ⟨-, great⟩ | bounded
    · cases packed : unpack .binary64 (pack .binary64 (.finite s m e pos)) with
      | infinity => rfl
      | notANumber | zero | finite =>
        rw [packed] at great
        cases great
    · exact unpackedIsNaN_of_isFinite (bounded (max e (-1074)) (by omega) (by omega)).isFinite

theorem isFinite_normalize (s : Sign) (m e : Int) :
    (UnpackedFloat.normalize .binary64 m e s).isFinite := by
  unfold UnpackedFloat.normalize
  cases compare m 0 with
  | lt | gt => exact isFinite_round _ _ _ _
  | eq => rfl

/-- Taking a finite number off loses no number and brings none back. -/
theorem isNaN_sub (x : Float) {y : Float} (finite : y.isFinite = true) :
    (x - y).isNaN = x.isNaN := by
  have whole : y.toModel.unpack.isFinite := finite
  have unpacked : (x - y).isNaN = (unpack .binary64 (pack .binary64
      (.sub .binary64 x.toModel.unpack y.toModel.unpack))).isNaN := rfl
  rw [unpacked, isNaN_unpack_pack]
  show _ = x.toModel.unpack.isNaN
  cases hy : y.toModel.unpack with
  | notANumber | infinity =>
    rw [hy] at whole
    cases whole
  | zero t =>
    cases x.toModel.unpack with
    | notANumber | infinity | finite => rfl
    | zero s => cases s <;> cases t <;> rfl
  | finite t m' e' =>
    cases x.toModel.unpack with
    | notANumber | infinity | zero => rfl
    | finite s m e => exact unpackedIsNaN_of_isFinite (isFinite_normalize _ _ _)

/-- A difference is not above a bound just if the number is missing or the difference is within. -/
theorem not_lt_abs_sub_iff {bound x y : Float} (hb : bound.isNaN = false)
    (finite : y.isFinite = true) :
    Scalar.lt bound (Scalar.abs (x - y)) = false ↔ x.isNaN = true ∨ (x - y).abs ≤ bound := by
  have missing : (Scalar.abs (x - y)).isNaN = x.isNaN := (isNaN_abs _).trans (isNaN_sub x finite)
  have within : (x - y).abs ≤ bound ↔ Scalar.le (Scalar.abs (x - y)) bound = true :=
    decide_eq_true_iff.symm
  rw [within, le_iff_not_lt hb, missing]
  cases hx : x.isNaN with
  | false => simp
  | true =>
    rw [hx] at missing
    refine iff_of_true ?_ (.inl rfl)
    rw [← Bool.not_eq_true, lt_iff, missing]
    exact fun less => Bool.false_ne_true less.2.1.symm

end Double

open Double Expectation

variable {c : Constraint Float} {s : Sketch Float} {expected : List Float} {tol : Float}

/-- A residual is missing or within the tolerance of the expected one. -/
def NotFar (tol a e : Float) : Prop := a.isNaN = true ∨ (a - e).abs ≤ tol

/-- The residuals are those expected: as many, none missing, and each within the tolerance. -/
def Constraint.Meets (c : Constraint Float) (s : Sketch Float) (expected : List Float)
    (tol : Float) : Prop :=
  ∃ values, c.valuesIn s = .ok values ∧
    List.Forall₂ (fun a e => a.isNaN = false ∧ (a - e).abs ≤ tol) values expected

def Constraint.NoneMissing (c : Constraint Float) (s : Sketch Float) : Prop :=
  ∃ values, c.valuesIn s = .ok values ∧ ∀ v ∈ values, v.isNaN = false

/-- The expectation stops at the first residual that is too far off, and a missing one is not too
far off from anything. -/
theorem residualsEqual_eq_ok_iff (finite : ∀ e ∈ expected, e.isFinite = true) (nonneg : 0 ≤ tol)
    (ctx : String) : residualsEqual c s expected tol ctx = .ok () ↔
      ∃ values, c.valuesIn s = .ok values ∧
        List.Forall₂ (NotFar tol) values expected := by
  rw [residualsEqual, bind_eq_ok]
  refine exists_congr fun values => and_congr_right fun _ => ?_
  rw [List.forall₂_iff_zip]
  by_cases len : values.length = expected.length
  · rw [if_neg (not_not_intro len), and_iff_right len]
    refine (meet_eq_ok_iff.trans Option.map_eq_none_iff).trans ?_
    rw [List.find?_eq_none]
    refine (forall_mem_zipIdx (p := fun x : Float × Float =>
      ¬Scalar.lt tol (Scalar.abs (x.1 - x.2)) = true)).trans ?_
    refine Prod.forall.trans (forall₂_congr fun a e => forall_congr' fun listed => ?_)
    rw [Bool.not_eq_true]
    exact not_lt_abs_sub_iff (isNaN_of_nonneg nonneg) (finite e (List.of_mem_zip listed).2)
  · refine iff_of_false (fun met => ?_) fun all => len all.1
    rw [if_pos len] at met
    cases met

theorem meets_iff : c.Meets s expected tol ↔ c.NoneMissing s ∧
    ∃ values, c.valuesIn s = .ok values ∧ List.Forall₂ (NotFar tol) values expected := by
  have near : (fun a e : Float => a.isNaN = false ∧ (a - e).abs ≤ tol) =
      fun a e => a.isNaN = false ∧ NotFar tol a e := by
    funext a e
    unfold NotFar
    cases a.isNaN <;> simp
  unfold Constraint.Meets
  rw [near]
  constructor
  · rintro ⟨values, collected, met⟩
    obtain ⟨measured, notFar⟩ := (List.forall₂_and_left _ _).mp met
    exact ⟨⟨values, collected, measured⟩, values, collected, notFar⟩
  · rintro ⟨⟨values, collected, measured⟩, values', collected', notFar⟩
    cases collected.symm.trans collected'
    exact ⟨values, collected, (List.forall₂_and_left _ _).mpr ⟨measured, notFar⟩⟩

/-- With finite expected values and a tolerance of zero or more, infinity included, the expectation
is met just if the residuals are as many as expected and each is missing or within the tolerance of
the expected one. So they are those expected just if the expectation is met and none is missing. -/
theorem residuals_expected (c : Constraint Float) (s : Sketch Float) (expected : List Float)
    (tol : Float) (ctx : String) (finite : ∀ e ∈ expected, e.isFinite = true) (nonneg : 0 ≤ tol) :
    (residualsEqual c s expected tol ctx = .ok () ↔ ∃ values, c.valuesIn s = .ok values ∧
      List.Forall₂ (NotFar tol) values expected) ∧
    (c.Meets s expected tol ↔
      c.NoneMissing s ∧ residualsEqual c s expected tol ctx = .ok ()) := by
  have met := residualsEqual_eq_ok_iff (c := c) (s := s) finite nonneg ctx
  exact ⟨met, meets_iff.trans (and_congr_right fun _ => met.symm)⟩

/-- One distance in digits and one in letters. -/
def spelledOut : List (Operation Float) :=
  [.point "p" ⟨0, 0⟩, .point "q" ⟨3, 4⟩,
    .constrainWith "given" .distancePP ["p", "q"] (.ofList [("distance", .text "4")]),
    .constrainWith "lost" .distancePP ["p", "q"] (.ofList [("distance", .text "five")])]

/-- The square of the distance is nine above that of the first; the second has no number. -/
theorem exists_spelledOut : ∃ given lost,
    (Workbench.after spelledOut).constraints = [given, lost] ∧
      given.constraint.valuesIn (Workbench.after spelledOut).sketch = .ok [9] ∧
      lost.constraint.valuesIn (Workbench.after spelledOut).sketch = .ok [nan] := by
  obtain ⟨given, lost, listed⟩ := List.length_eq_two.mp
    (show (Workbench.after spelledOut).constraints.length = 2 by decide +kernel)
  have values : (Workbench.after spelledOut).constraints.map (fun n =>
      n.constraint.valuesIn (Workbench.after spelledOut).sketch) = [.ok [9], .ok [nan]] := by
    decide +kernel
  rw [listed] at values
  obtain ⟨first, rest⟩ := List.cons.inj values
  exact ⟨given, lost, listed, first, (List.cons.inj rest).1⟩

theorem residuals_expected_spelledOut : ∃ given lost,
    (Workbench.after spelledOut).constraints = [given, lost] ∧
      given.constraint.Meets (Workbench.after spelledOut).sketch [8.5] 0.5 ∧
      residualsEqual lost.constraint (Workbench.after spelledOut).sketch [8.5] 0.5 "" = .ok () := by
  obtain ⟨given, lost, listed, nine, missing⟩ := exists_spelledOut
  have expect (n : NamedConstraint Float) := residuals_expected n.constraint
    (Workbench.after spelledOut).sketch [8.5] 0.5 "" (by decide +kernel) (by decide +kernel)
  refine ⟨given, lost, listed, (expect given).2.mpr ⟨⟨_, nine, by decide +kernel⟩, ?_⟩,
    (expect lost).1.mpr ⟨_, missing, .cons (.inl (by decide +kernel)) .nil⟩⟩
  exact (expect given).1.mpr ⟨_, nine, .cons (.inr (by decide +kernel)) .nil⟩

/-- An expectation that is met does not say that the residuals are those expected. -/
theorem residuals_expected_missing :
    ¬∀ (c : Constraint Float) (s : Sketch Float) (expected : List Float) (tol : Float)
      (ctx : String), (∀ e ∈ expected, e.isFinite = true) → 0 ≤ tol →
        residualsEqual c s expected tol ctx = .ok () → c.Meets s expected tol := by
  intro sound
  obtain ⟨-, lost, -, -, missing⟩ := exists_spelledOut
  have passed : residualsEqual lost.constraint (Workbench.after spelledOut).sketch [0] 0 "" =
      .ok () := (residualsEqual_eq_ok_iff (by decide +kernel) (by decide +kernel) "").mpr
    ⟨_, missing, .cons (.inl (by decide +kernel)) .nil⟩
  obtain ⟨values, collected, near⟩ :=
    sound _ _ [0] 0 "" (by decide +kernel) (by decide +kernel) passed
  cases missing.symm.trans collected
  cases near with
  | cons met _ => exact absurd met.1 (by decide +kernel)

end Drafting
