import Mathlib.Analysis.SpecialFunctions.Complex.Arg
import Mathlib.Analysis.SpecialFunctions.Trigonometric.Basic
import Drafting.Plane
import Drafting.Proofs.Evaluation

namespace Drafting

open Coefficient (ofInt)

/-- The whole part of a number, toward zero. -/
noncomputable def wholePart (x : ℝ) : ℤ := if 0 ≤ x then ⌊x⌋ else ⌈x⌉

/-- Nothing is missing and nothing infinite among the real numbers. -/
noncomputable instance : Scalar ℝ where
  toAdd := inferInstance
  toMul := inferInstance
  toNeg := inferInstance
  ofInt n := n
  toSub := inferInstance
  toDiv := inferInstance
  beq x y := decide (x = y)
  pi := Real.pi
  nan := 0
  abs x := |x|
  sqrt := Real.sqrt
  sin := Real.sin
  cos := Real.cos
  atan2 y x := Complex.arg ⟨x, y⟩
  hypot x y := Real.sqrt (x * x + y * y)
  rem x y := x - y * wholePart (x / y)
  lt x y := decide (x < y)
  le x y := decide (x ≤ y)
  isNaN _ := false
  isFinite _ := true

namespace Exact

/-- The remainder has the sign of the dividend, as the quotient is cut toward zero. -/
theorem rem_eq (x y : ℝ) : Scalar.rem x y = x - y * wholePart (x / y) := rfl

/-- Division leaves less than the divisor. -/
theorem abs_rem_lt {x m : ℝ} (hm : 0 < m) : |Scalar.rem x m| < m := by
  have split : x = m * (x / m) := by field_simp
  rw [rem_eq, wholePart, abs_lt]
  split_ifs with h
  · have lower := Int.floor_le (x / m)
    have upper := Int.lt_floor_add_one (x / m)
    constructor <;> nlinarith
  · have lower := Int.ceil_lt_add_one (x / m)
    have upper := Int.le_ceil (x / m)
    constructor <;> nlinarith

/-- A number that is less than the divisor is left as it is. -/
theorem rem_of_abs_lt {x m : ℝ} (h : |x| < m) : Scalar.rem x m = x := by
  have hm : 0 < m := (abs_nonneg x).trans_lt h
  have part : |x / m| < 1 := by rwa [abs_div, abs_of_pos hm, div_lt_one hm]
  obtain ⟨lower, upper⟩ := abs_lt.mp part
  have none : wholePart (x / m) = 0 := by
    rw [wholePart]
    split_ifs with sign
    · exact Int.floor_eq_zero_iff.mpr ⟨sign, upper⟩
    · exact Int.ceil_eq_zero_iff.mpr ⟨lower, (not_le.mp sign).le⟩
  rw [rem_eq, none, Int.cast_zero, mul_zero, sub_zero]

@[simp] theorem ofInt_eq (n : ℤ) : (ofInt n : ℝ) = n := rfl

theorem two_eq : (ofInt 2 : ℝ) = 2 := Int.cast_ofNat 2

@[simp] theorem lt_iff (x y : ℝ) : Scalar.lt x y = true ↔ x < y := decide_eq_true_iff

@[simp] theorem le_iff (x y : ℝ) : Scalar.le x y = true ↔ x ≤ y := decide_eq_true_iff

theorem cos_eq (x : ℝ) : Scalar.cos x = Real.cos x := rfl

theorem sin_eq (x : ℝ) : Scalar.sin x = Real.sin x := rfl

/-- The residue of a positive divisor is in its range, and some multiple of it away. -/
theorem residue_spec (x : ℝ) {m : ℝ} (hm : 0 < m) :
    0 ≤ Angle.residue x m ∧ Angle.residue x m < m ∧ ∃ k : ℤ, Angle.residue x m = x + k * m := by
  obtain ⟨lower, upper⟩ := abs_lt.mp (abs_rem_lt (x := x) hm)
  have size : Scalar.abs m = m := abs_of_pos hm
  simp only [Angle.residue, lt_iff, ofInt_eq, Int.cast_zero, size]
  split
  · rename_i negative
    refine ⟨by linarith, by linarith, 1 - wholePart (x / m), ?_⟩
    rw [rem_eq]
    push_cast
    ring
  · rename_i positive
    refine ⟨not_lt.mp positive, upper, -wholePart (x / m), ?_⟩
    rw [rem_eq]
    push_cast
    ring

theorem turn_eq : (Angle.turn : ℝ) = 2 * Real.pi := by
  rw [Angle.turn, ofInt_eq, Int.cast_ofNat]
  rfl

/-- Turning an angle back within one turn takes whole turns off it. -/
theorem wrap_spec (x : ℝ) {full : ℝ} (hf : 0 < full) :
    0 ≤ Angle.wrap full x ∧ Angle.wrap full x < full ∧
      ∃ k : ℤ, Angle.wrap full x = x + k * full := by
  obtain ⟨lower, upper, whole⟩ := residue_spec x hf
  have within : ¬full ≤ Angle.residue x full := not_le.mpr upper
  simp only [Angle.wrap, le_iff, if_neg within]
  exact ⟨lower, upper, whole⟩

/-- In exact arithmetic an angle that is turned back never comes out as a whole turn. -/
theorem wrapRadians_spec (x : ℝ) :
    0 ≤ Angle.wrapRadians x ∧ Angle.wrapRadians x < 2 * Real.pi ∧
      ∃ k : ℤ, Angle.wrapRadians x = x + k * (2 * Real.pi) := by
  rw [Angle.wrapRadians, turn_eq]
  exact wrap_spec x Real.two_pi_pos

theorem wrapDegrees_spec (x : ℝ) :
    0 ≤ Angle.wrapDegrees x ∧ Angle.wrapDegrees x < 360 ∧
      ∃ k : ℤ, Angle.wrapDegrees x = x + k * 360 := by
  have full : (ofInt 360 : ℝ) = 360 := Int.cast_ofNat 360
  rw [Angle.wrapDegrees, full]
  exact wrap_spec x (by norm_num)

theorem cos_wrapRadians (x : ℝ) : Real.cos (Angle.wrapRadians x) = Real.cos x := by
  obtain ⟨-, -, k, hk⟩ := wrapRadians_spec x
  rw [hk, Real.cos_add_int_mul_two_pi]

theorem sin_wrapRadians (x : ℝ) : Real.sin (Angle.wrapRadians x) = Real.sin x := by
  obtain ⟨-, -, k, hk⟩ := wrapRadians_spec x
  rw [hk, Real.sin_add_int_mul_two_pi]

/-- Steps are complex numbers, with the length as absolute value and the direction as argument. -/
theorem norm_eq (d : Vec ℝ) : d.norm = ‖(⟨d.x, d.y⟩ : ℂ)‖ := by
  rw [Complex.norm_def, Complex.normSq_mk]
  rfl

theorem norm_sq (d : Vec ℝ) : d.norm ^ 2 = d.x ^ 2 + d.y ^ 2 := by
  rw [sq d.x, sq d.y]
  exact Real.sq_sqrt (add_nonneg (mul_self_nonneg d.x) (mul_self_nonneg d.y))

theorem norm_nonneg (d : Vec ℝ) : 0 ≤ d.norm := Real.sqrt_nonneg _

/-- A step of no length has a direction too. -/
theorem direction_within (d : Vec ℝ) : 0 ≤ d.direction ∧ d.direction < 2 * Real.pi :=
  let ⟨lower, upper, _⟩ := wrapRadians_spec (Complex.arg ⟨d.x, d.y⟩)
  ⟨lower, upper⟩

/-- Going as far as a step is long in its direction is taking the step, even one of no length. -/
theorem cos_atan2 (d : Vec ℝ) : Real.cos (Scalar.atan2 d.y d.x) * d.norm = d.x := by
  rw [norm_eq, mul_comm]
  exact Complex.norm_mul_cos_arg _

theorem sin_atan2 (d : Vec ℝ) : Real.sin (Scalar.atan2 d.y d.x) * d.norm = d.y := by
  rw [norm_eq, mul_comm]
  exact Complex.norm_mul_sin_arg _

theorem cos_direction (d : Vec ℝ) : Real.cos d.direction * d.norm = d.x := by
  rw [Vec.direction, cos_wrapRadians, cos_atan2]

theorem sin_direction (d : Vec ℝ) : Real.sin d.direction * d.norm = d.y := by
  rw [Vec.direction, sin_wrapRadians, sin_atan2]

section Residuals

variable (value : Handle → ℝ)

/-- The functions of factors are those of the real numbers. -/
theorem evaluate_eq (p : Polynomial ℝ) :
    p.evaluate value = p.evaluateWith (TermFn.ofTrig Real.sin Real.cos) value := rfl

theorem evaluate_polar (ang t x1 y1 x2 y2 : Handle) :
    (Residual.polar ang t x1 y1 x2 y2).map (Polynomial.evaluate value) =
      [value x1 + Real.cos (value ang) * value t - value x2,
        value y1 + Real.sin (value ang) * value t - value y2] := by
  simp only [Residual.polar, List.map_cons, List.map_nil, evaluate_eq]
  refine List.cons_eq_cons.mpr ⟨?_, List.cons_eq_cons.mpr ⟨?_, rfl⟩⟩
  · simp
    ring
  · simp
    ring

theorem evaluate_arcConsistency (r ang1 ang2 ax ay bx b_y cx cy : Handle) :
    (Residual.arcConsistency r ang1 ang2 ax ay bx b_y cx cy).map (Polynomial.evaluate value) =
      [value cx + value r * Real.cos (value ang1) - value ax,
        value cy + value r * Real.sin (value ang1) - value ay,
        value cx + value r * Real.cos (value ang2) - value bx,
        value cy + value r * Real.sin (value ang2) - value b_y] := by
  have finish (e c r : Handle) (f : Term) :
      (Residual.arcEnd e c r f : Polynomial ℝ).evaluate value =
        value c + value r * TermFn.ofTrig Real.sin Real.cos f.fn (value f.param) - value e := by
    simp only [Residual.arcEnd, evaluate_eq]
    simp
    ring
  simp [Residual.arcConsistency, finish]

end Residuals

end Exact

end Drafting
