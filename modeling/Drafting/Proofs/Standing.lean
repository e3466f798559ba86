import Mathlib.Analysis.Normed.Group.AddCircle
import Drafting.Proofs.Satisfying

namespace Drafting

open Coefficient (ofInt)

abbrev Compass : Type := AddCircle (360 : ℝ)

namespace Exact

/-- An angle is turned back to the one within a turn that it is whole turns away from. -/
theorem wrapDegrees_eq {x y : ℝ} {n : ℤ} (lower : 0 ≤ y) (upper : y < 360)
    (whole : x = y + n * 360) : Angle.wrapDegrees x = y := by
  obtain ⟨low, high, k, turned⟩ := wrapDegrees_spec x
  have turns : (n + k : ℤ) = 0 := by
    have less : ((n + k : ℤ) : ℝ) < 1 := by push_cast; linarith
    have more : (-1 : ℝ) < (n + k : ℤ) := by push_cast; linarith
    norm_cast at less more
    omega
  have none : (n + k : ℝ) = 0 := by exact_mod_cast turns
  linear_combination turned + whole + 360 * none

/-- How far apart two angles in degrees are on the circle. -/
noncomputable def apart (x y : ℝ) : ℝ := dist (x : Compass) (y : Compass)

/-- Two angles that differ by no more than `r`, but for whole turns, are no further apart. -/
theorem apart_le_of_turns {x d r : ℝ} {n : ℤ} (h : |x + n * 360 - d| ≤ r) : apart x d ≤ r := by
  have turns : ((n * 360 : ℝ) : Compass) = 0 :=
    (AddCircle.coe_eq_zero_iff _).mpr ⟨n, zsmul_eq_mul 360 n⟩
  have same : ((x + n * 360 - d : ℝ) : Compass) = x - d := by
    rw [AddCircle.coe_sub, AddCircle.coe_add, turns, add_zero]
  rw [apart, dist_eq_norm, ← same]
  exact QuotientAddGroup.norm_mk_le_norm.trans h

/-- Opposite directions are half a turn apart. -/
theorem apart_opposite {x y : ℝ} (opposite : y - x = 180) : apart y x = 180 := by
  have half : ‖((360 / 2 : ℝ) : Compass)‖ = |(360 : ℝ)| / 2 := AddCircle.norm_half_period_eq 360
  have step : y - x = 360 / 2 := by linarith
  rw [apart, dist_eq_norm, ← AddCircle.coe_sub, step, half]
  norm_num

theorem apart_comm (x y : ℝ) : apart x y = apart y x := dist_comm _ _

/-- What is within a quarter turn is at least as near as what is opposite to it. -/
theorem apart_le_opposite {x y d : ℝ} (near : apart x d ≤ 90) (opposite : apart y x = 180) :
    apart x d ≤ apart y d := by
  have around : apart y x ≤ apart y d + apart x d := dist_triangle_right _ _ _
  linarith

theorem lesser_eq (x y : ℝ) : Scalar.lesser x y = min x y := by
  have whole (z : ℝ) : Scalar.isNaN z = false := rfl
  simp only [Scalar.lesser, whole, Bool.false_eq_true, if_false, lt_iff, min_def_lt]
  grind

theorem nearestVertical_eq (w : ℝ) : Angle.nearestVertical w = if w < 180 then 90 else 270 := by
  have first : (ofInt 90 : ℝ) = 90 := Int.cast_ofNat 90
  have second : (ofInt 270 : ℝ) = 270 := Int.cast_ofNat 270
  have size (x : ℝ) : Scalar.abs x = |x| := rfl
  have nearer : |90 - w| < |270 - w| ↔ w < 180 := by
    rw [← sq_lt_sq]
    constructor <;> intro h <;> nlinarith
  simp only [Angle.nearestVertical, first, second, lt_iff, size, nearer]

theorem nearestHorizontal_eq {w : ℝ} (lower : 0 ≤ w) (upper : w < 360) :
    Angle.nearestHorizontal w = if w < 90 ∨ 270 < w then 0 else 180 := by
  have full : (ofInt 360 : ℝ) = 360 := Int.cast_ofNat 360
  have half : (ofInt 180 : ℝ) = 180 := Int.cast_ofNat 180
  have zero : (ofInt 0 : ℝ) = 0 := Int.cast_zero
  have size (x : ℝ) : Scalar.abs x = |x| := rfl
  have nearer : min |360 - w| |w| < |180 - w| ↔ w < 90 ∨ 270 < w := by
    rw [abs_of_pos (sub_pos.mpr upper), abs_of_nonneg lower, min_lt_iff, lt_abs, lt_abs]
    constructor
    · rintro ((h | h) | h | h)
      · linarith
      · right; linarith
      · left; linarith
      · linarith
    · rintro (h | h)
      · right; left; linarith
      · left; right; linarith
  simp only [Angle.nearestHorizontal, full, half, zero, lesser_eq, lt_iff, size, nearer]

/-- Upright or square: the nearer of the two is within a quarter turn. -/
theorem nearestVertical_near {w : ℝ} (lower : 0 ≤ w) (upper : w < 360) :
    ∃ n : ℤ, |Angle.nearestVertical w + n * 360 - w| ≤ 90 := by
  refine ⟨0, ?_⟩
  rw [nearestVertical_eq, Int.cast_zero, zero_mul, add_zero, abs_le]
  split_ifs <;> constructor <;> linarith

/-- Level or parallel: past three quarters of a turn it is the next zero that is near. -/
theorem nearestHorizontal_near {w : ℝ} (lower : 0 ≤ w) (upper : w < 360) :
    ∃ n : ℤ, |Angle.nearestHorizontal w + n * 360 - w| ≤ 90 := by
  rw [nearestHorizontal_eq lower upper]
  by_cases past : 270 < w
  · refine ⟨1, ?_⟩
    rw [if_pos (.inr past), Int.cast_one, abs_le]
    constructor <;> linarith
  · refine ⟨0, ?_⟩
    rw [Int.cast_zero, zero_mul, add_zero, abs_le]
    split_ifs with h
    · rcases h with h | h <;> constructor <;> linarith
    · obtain ⟨h, -⟩ := not_or.mp h
      constructor <;> linarith

/-- The residual of a direction within a quarter turn, but for whole turns, is as small as that. -/
theorem quarter_of_turns {x ang : ℝ} (h : ∃ n : ℤ, |x + n * 360 - Angle.toDegrees ang| ≤ 90) :
    ∃ n : ℤ, |ang - Angle.toRadians x - n * (2 * Real.pi)| ≤ Real.pi / 2 := by
  obtain ⟨n, near⟩ := h
  have half : Real.pi ≠ 0 := Real.pi_ne_zero
  have scale : ang - Angle.toRadians x - n * (2 * Real.pi) =
      -(x + n * 360 - Angle.toDegrees ang) * (Real.pi / 180) := by
    rw [toRadians_eq, toDegrees_eq]
    field_simp
    ring
  have unit : 0 < Real.pi / 180 := by positivity
  refine ⟨n, ?_⟩
  rw [scale, abs_mul, abs_neg, abs_of_pos unit]
  linarith [mul_le_mul_of_nonneg_right near unit.le]

/-- What is near an angle that was turned back within one turn is near the angle. -/
theorem near_of_wrapped {x d : ℝ} (h : ∃ n : ℤ, |x + n * 360 - Angle.wrapDegrees d| ≤ 90) :
    ∃ n : ℤ, |x + n * 360 - d| ≤ 90 := by
  obtain ⟨n, near⟩ := h
  obtain ⟨-, -, k, whole⟩ := wrapDegrees_spec d
  refine ⟨n - k, ?_⟩
  have same : x + (n - k : ℤ) * 360 - d = x + n * 360 - Angle.wrapDegrees d := by
    rw [whole]
    push_cast
    ring
  rwa [same]

end Exact

namespace Constraint

variable [Written ℝ] {c : Constraint ℝ} {u : Sketch ℝ} {k : Kind} {seg seg₁ seg₂ : ObjectId}
  {l l₁ l₂ : Segment}

theorem On.standing (hk : k = .vertical ∨ k = .horizontal) (h : c.On k [seg] u)
    (hl : u.segment seg = .ok l) :
    c.residualValues u = .ok [u.value l.ang - c.resolved.number "angle"] := by
  obtain ⟨l', hl', residuals⟩ := h.residuals_direction (.inr hk)
  cases hl.symm.trans hl'
  have values : c.residualValues u = .ok [(Residual.offset _ _).evaluate u.value] :=
    residualValues_of residuals
  rwa [Exact.evaluate_offset] at values

theorem On.crossing (hk : k = .perpendicular ∨ k = .parallel) (h : c.On k [seg₁, seg₂] u)
    (h₁ : u.segment seg₁ = .ok l₁) (h₂ : u.segment seg₂ = .ok l₂) :
    c.residualValues u = .ok [u.value l₂.ang - u.value l₁.ang - c.resolved.number "angle"] := by
  obtain ⟨l, l', hl, hl', residuals⟩ := h.residuals_turn (.inr hk)
  cases h₁.symm.trans hl
  cases h₂.symm.trans hl'
  have values : c.residualValues u = .ok [(Residual.angleBetween _ _ _).evaluate u.value] :=
    residualValues_of residuals
  rwa [Exact.evaluate_angleBetween] at values

end Constraint

namespace Kind

open Sketch Constraint

/-- The constant `x` that a kind measures where its objects are at an angle of `ang` radians: of two
opposite directions in degrees it is one that no other is nearer to on the circle, and with it, in
whichever way it is written, residuals are off whole turns by a quarter turn at most. -/
structure Chooses [Written ℝ] (k : Kind) (objects : List ObjectId) (u : Sketch ℝ)
    (ang first second x : ℝ) : Prop where
  measured : k.measure u objects = .ok [("angle", .number x)]
  standing : x = first ∨ x = second
  nearest : Exact.apart x (Angle.toDegrees ang) ≤ Exact.apart first (Angle.toDegrees ang) ∧
    Exact.apart x (Angle.toDegrees ang) ≤ Exact.apart second (Angle.toDegrees ang)
  within : ∀ c : Constraint ℝ, c.On k objects u → ∀ raw, c.constants.get? "angle" = some raw →
    raw.asNumber = x → ∃ r, c.residualValues u = .ok [r] ∧
      ∃ n : ℤ, |r - n * (2 * Real.pi)| ≤ Real.pi / 2
  exists_on : u.Grounded →
    ∃ c : Constraint ℝ, c.On k objects u ∧ c.constants.get? "angle" = some (.number x)

section Chosen

variable [Written ℝ] {k : Kind} {objects : List ObjectId} {u : Sketch ℝ} {ang first second x : ℝ}
  {description : String}

theorem chooses_of (definitions : k.definitions = [degrees description true])
    (residual : k.isModifier = false) (fits : u.Fits k.signature objects)
    (measured : k.measured? u objects = some (.ok [("angle", .number x)]))
    (standing : x = first ∨ x = second) (opposite : second - first = 180)
    (near : ∃ n : ℤ, |x + n * 360 - Angle.wrapDegrees (Angle.toDegrees ang)| ≤ 90)
    (values : ∀ c : Constraint ℝ, c.On k objects u →
      c.residualValues u = .ok [ang - c.resolved.number "angle"]) :
    k.Chooses objects u ang first second x where
  measured := measure_of_measured (by rw [definitions]; rfl) measured
  standing := standing
  nearest := by
    obtain ⟨n, turns⟩ := Exact.near_of_wrapped near
    have quarter := Exact.apart_le_of_turns turns
    have half := Exact.apart_opposite opposite
    obtain rfl | rfl := standing
    · exact ⟨le_rfl, Exact.apart_le_opposite quarter half⟩
    · rw [Exact.apart_comm] at half
      exact ⟨Exact.apart_le_opposite quarter half, le_rfl⟩
  within := by
    intro c on raw given same
    have defined : degrees description true ∈ c.kind.definitions := by
      rw [on.kind, definitions]
      exact List.mem_singleton_self _
    have angle : c.resolved.number "angle" = Angle.toRadians raw.asNumber :=
      Constant.number_resolve c.kind.names_rising defined rfl given
    refine ⟨_, values c on, ?_⟩
    rw [angle, same]
    exact Exact.quarter_of_turns (Exact.near_of_wrapped near)
  exists_on := by
    intro g
    obtain ⟨c, on, -, given⟩ := Constraint.exists_on k objects
      (Table.empty.insert "angle" (.number x)) g residual fits fun _ e he => ⟨e, he, rfl⟩
    exact ⟨c, on, by rw [given, Table.get?_insert_self]⟩

/-- Between the two directions of a vertical the one that points down is taken. -/
theorem chooses_vertical (definitions : k.definitions = [degrees description true])
    (residual : k.isModifier = false) (fits : u.Fits k.signature objects) {w : ℝ}
    (turned : Angle.wrapDegrees (Angle.toDegrees ang) = w)
    (measured : k.measured? u objects = some (.ok [("angle", .number (Angle.nearestVertical w))]))
    (values : ∀ c : Constraint ℝ, c.On k objects u →
      c.residualValues u = .ok [ang - c.resolved.number "angle"]) :
    ∃ x, k.Chooses objects u ang 90 270 x ∧ (w = 180 → x = 270) := by
  obtain ⟨lower, upper, -⟩ := Exact.wrapDegrees_spec (Angle.toDegrees ang)
  rw [turned] at lower upper
  refine ⟨_, chooses_of definitions residual fits measured ?_ (by norm_num) ?_ values, ?_⟩
  · rw [Exact.nearestVertical_eq]
    split_ifs <;> simp
  · rw [turned]
    exact Exact.nearestVertical_near lower upper
  · rintro rfl
    rw [Exact.nearestVertical_eq, if_neg (lt_irrefl _)]

/-- Between the two directions of a level the one that points back is taken. -/
theorem chooses_horizontal (definitions : k.definitions = [degrees description true])
    (residual : k.isModifier = false) (fits : u.Fits k.signature objects) {w : ℝ}
    (turned : Angle.wrapDegrees (Angle.toDegrees ang) = w)
    (measured : k.measured? u objects =
      some (.ok [("angle", .number (Angle.nearestHorizontal w))]))
    (values : ∀ c : Constraint ℝ, c.On k objects u →
      c.residualValues u = .ok [ang - c.resolved.number "angle"]) :
    ∃ x, k.Chooses objects u ang 0 180 x ∧ (w = 90 ∨ w = 270 → x = 180) := by
  obtain ⟨lower, upper, -⟩ := Exact.wrapDegrees_spec (Angle.toDegrees ang)
  rw [turned] at lower upper
  refine ⟨_, chooses_of definitions residual fits measured ?_ (by norm_num) ?_ values, ?_⟩
  · rw [Exact.nearestHorizontal_eq lower upper]
    split_ifs <;> simp
  · rw [turned]
    exact Exact.nearestHorizontal_near lower upper
  · rintro (rfl | rfl)
    all_goals rw [Exact.nearestHorizontal_eq lower upper, if_neg (by norm_num)]

end Chosen

section Measured

variable [Written ℝ] {u : Sketch ℝ} {seg seg₁ seg₂ : ObjectId} {l l₁ l₂ : Segment}

theorem chooses_direction (hl : u.segment seg = .ok l) : ∃ w, u.angleDegrees seg = .ok w ∧
    (∃ x, Kind.vertical.Chooses [seg] u (u.value l.ang) 90 270 x ∧ (w = 180 → x = 270)) ∧
    ∃ x, Kind.horizontal.Chooses [seg] u (u.value l.ang) 0 180 x ∧
      (w = 90 ∨ w = 270 → x = 180) := by
  have measured : u.angleDegrees seg =
      .ok (Angle.wrapDegrees (Angle.toDegrees (u.value l.ang))) := by
    rw [angleDegrees, hl]
    rfl
  have fits : u.Fits [.only .segment] [seg] := .cons (exists_segment.mp ⟨l, hl⟩) .nil
  refine ⟨_, measured, ?_, ?_⟩
  · refine chooses_vertical rfl rfl fits rfl ?_ fun c on => on.standing (.inl rfl) hl
    rw [measured?, measured]
    rfl
  · refine chooses_horizontal rfl rfl fits rfl ?_ fun c on => on.standing (.inr rfl) hl
    rw [measured?, measured]
    rfl

theorem chooses_turn (h₁ : u.segment seg₁ = .ok l₁) (h₂ : u.segment seg₂ = .ok l₂) :
    ∃ w, relativeAngle u seg₁ seg₂ = .ok w ∧
      (∃ x, Kind.perpendicular.Chooses [seg₁, seg₂] u (u.value l₂.ang - u.value l₁.ang) 90 270 x ∧
        (w = 180 → x = 270)) ∧
      ∃ x, Kind.parallel.Chooses [seg₁, seg₂] u (u.value l₂.ang - u.value l₁.ang) 0 180 x ∧
        (w = 90 ∨ w = 270 → x = 180) := by
  have measured : relativeAngle u seg₁ seg₂ =
      .ok (Angle.wrapDegrees (Angle.toDegrees (u.value l₂.ang - u.value l₁.ang))) := by
    rw [relativeAngle, h₁, h₂]
    rfl
  have fits : u.Fits [.only .segment, .only .segment] [seg₁, seg₂] :=
    .cons (exists_segment.mp ⟨l₁, h₁⟩) (.cons (exists_segment.mp ⟨l₂, h₂⟩) .nil)
  refine ⟨_, measured, ?_, ?_⟩
  · refine chooses_vertical rfl rfl fits rfl ?_ fun c on => on.crossing (.inl rfl) h₁ h₂
    rw [measured?, measured]
    rfl
  · refine chooses_horizontal rfl rfl fits rfl ?_ fun c on => on.crossing (.inr rfl) h₁ h₂
    rw [measured?, measured]
    rfl

variable (u) in
/-- Whatever the angles of the segments are, a segment is held upright or level, and two segments
square or parallel, in the direction that is nearest on the circle; where both are as near, a half
turn goes to 270 degrees and a quarter to 180. -/
theorem standing_nearest :
    (∀ seg l, u.segment seg = .ok l → ∃ w, u.angleDegrees seg = .ok w ∧
      (∃ x, Kind.vertical.Chooses [seg] u (u.value l.ang) 90 270 x ∧ (w = 180 → x = 270)) ∧
      ∃ x, Kind.horizontal.Chooses [seg] u (u.value l.ang) 0 180 x ∧
        (w = 90 ∨ w = 270 → x = 180)) ∧
    ∀ seg₁ seg₂ l₁ l₂, u.segment seg₁ = .ok l₁ → u.segment seg₂ = .ok l₂ →
      ∃ w, relativeAngle u seg₁ seg₂ = .ok w ∧
        (∃ x, Kind.perpendicular.Chooses [seg₁, seg₂] u (u.value l₂.ang - u.value l₁.ang) 90 270
          x ∧ (w = 180 → x = 270)) ∧
        ∃ x, Kind.parallel.Chooses [seg₁, seg₂] u (u.value l₂.ang - u.value l₁.ang) 0 180 x ∧
          (w = 90 ∨ w = 270 → x = 180) :=
  ⟨fun _ _ => chooses_direction, fun _ _ _ _ => chooses_turn⟩

end Measured

/-- The first segment points back after two turns and a half, the second a quarter turn less. -/
noncomputable def spun : Sketch ℝ :=
  (drawnCorner.setValue ⟨5, 1⟩ (5 * Real.pi)).setValue ⟨11, 1⟩ (4.5 * Real.pi)

/-- Upright is down, and parallel the other way round; with these, residuals are just a quarter turn
off. -/
theorem standing_nearest_spun : spun.Grounded ∧ ∀ [Written ℝ],
    Kind.vertical.measure spun [⟨3⟩] = .ok [("angle", .number 270)] ∧
    Kind.parallel.measure spun [⟨3⟩, ⟨6⟩] = .ok [("angle", .number 180)] ∧
    ∃ c : Constraint ℝ, c.On .vertical [⟨3⟩] spun ∧ ∃ r, c.residualValues spun = .ok [r] ∧
      ∃ n : ℤ, |r - n * (2 * Real.pi)| ≤ Real.pi / 2 := by
  have g : spun.Grounded := grounded_drawnCorner.sameShapes ⟨rfl, rfl⟩
  refine ⟨g, fun {_} => ?_⟩
  have h₁ : spun.segment ⟨3⟩ = .ok ⟨⟨1⟩, ⟨2⟩, ⟨5, 1⟩, ⟨6, 1⟩⟩ := rfl
  have h₂ : spun.segment ⟨6⟩ = .ok ⟨⟨4⟩, ⟨5⟩, ⟨11, 1⟩, ⟨12, 1⟩⟩ := rfl
  have first : spun.value ⟨5, 1⟩ = 5 * Real.pi := rfl
  have second : spun.value ⟨11, 1⟩ = 4.5 * Real.pi := rfl
  -- five half turns, and a quarter turn back
  have back : Angle.wrapDegrees (Angle.toDegrees (5 * Real.pi)) = 180 := by
    refine Exact.wrapDegrees_eq (n := 2) (by norm_num) (by norm_num) ?_
    rw [Exact.toDegrees_eq]
    push_cast
    field_simp
    norm_num
  have quarter : Angle.wrapDegrees
      (Angle.toDegrees (4.5 * Real.pi - 5 * Real.pi)) = 270 := by
    refine Exact.wrapDegrees_eq (n := -1) (by norm_num) (by norm_num) ?_
    rw [Exact.toDegrees_eq]
    push_cast
    field_simp
    norm_num
  obtain ⟨one, two⟩ := standing_nearest spun
  obtain ⟨w, hw, ⟨x, upright, down⟩, -⟩ := one _ _ h₁
  obtain ⟨v, hv, -, y, parallel, reversed⟩ := two _ _ _ _ h₁ h₂
  have half : w = 180 := by
    rw [angleDegrees, h₁] at hw
    exact (Except.ok.inj hw).symm.trans (first ▸ back)
  have three : v = 270 := by
    rw [relativeAngle, h₁, h₂] at hv
    exact (Except.ok.inj hv).symm.trans (first ▸ second ▸ quarter)
  obtain rfl := down half
  obtain rfl := reversed (.inr three)
  obtain ⟨c, on, given⟩ := upright.exists_on g
  exact ⟨upright.measured, parallel.measured, c, on, upright.within c on _ given rfl⟩

end Kind

end Drafting
