import Mathlib.Analysis.SpecialFunctions.Trigonometric.Angle
import Drafting.Proofs.Freshness
import Drafting.Proofs.Lines

namespace Drafting

open Sketch (onCircle)

namespace Reflection

/-- How far a point is from the line, on the side that the normal points to. -/
noncomputable def height (r : Reflection ℝ) (p : Vec ℝ) : ℝ := r.normal.dot (p.sub r.origin)

theorem height_eq (r : Reflection ℝ) (p : Vec ℝ) :
    r.height p = r.normal.x * (p.x - r.origin.x) + r.normal.y * (p.y - r.origin.y) := rfl

theorem apply_eq (r : Reflection ℝ) (p : Vec ℝ) :
    r.apply p = p.sub (r.normal.scale (2 * r.height p)) := by
  rw [apply, height, Exact.two_eq]

theorem apply_mk (r : Reflection ℝ) (p : Vec ℝ) :
    r.apply p = ⟨p.x - r.normal.x * (2 * r.height p), p.y - r.normal.y * (2 * r.height p)⟩ :=
  r.apply_eq p

section Unit

variable {r : Reflection ℝ} (unit : r.normal.norm = 1) (p q : Vec ℝ)

include unit

theorem sq_normal : r.normal.x ^ 2 + r.normal.y ^ 2 = 1 := by
  rw [← Exact.norm_sq, unit, one_pow]

/-- A point and its image are as far from the line, on different sides. -/
theorem height_apply : r.height (r.apply p) = -r.height p := by
  rw [height_eq, apply_mk]
  linear_combination -2 * r.height p * sq_normal unit - height_eq r p

/-- With a unit normal a reflection takes itself back. -/
theorem apply_apply : r.apply (r.apply p) = p := by
  rw [apply_mk r (r.apply p), height_apply unit, apply_mk]
  refine Vec.ext ?_ ?_
  · ring
  · ring

/-- Points of the line stay, and no others. -/
theorem apply_eq_self_iff : r.apply p = p ↔ r.height p = 0 := by
  constructor
  · intro fixed
    have turned := height_apply unit p
    rw [fixed] at turned
    linarith
  · intro on
    simp [apply_mk, on]

/-- The step between two points loses twice its part along the normal. -/
theorem norm_apply_sub : ((r.apply p).sub (r.apply q)).norm = (p.sub q).norm := by
  rw [← sq_eq_sq₀ (Exact.norm_nonneg _) (Exact.norm_nonneg _), Exact.norm_sq, Exact.norm_sq,
    apply_mk, apply_mk]
  have along : r.height p - r.height q = r.normal.x * (p.x - q.x) + r.normal.y * (p.y - q.y) := by
    rw [height_eq, height_eq]
    ring
  simp only [Vec.sub]
  linear_combination 4 * (r.height p - r.height q) ^ 2 * sq_normal unit +
    4 * (r.height p - r.height q) * along

/-- Directions are turned around: what goes round one way goes round the other way. -/
theorem exists_turned : ∃ full, ∀ c k ang,
    r.apply (onCircle c k ang) = onCircle (r.apply c) k (full - ang) := by
  have nx := Exact.cos_atan2 r.normal
  have ny := Exact.sin_atan2 r.normal
  rw [unit, mul_one] at nx ny
  generalize (Scalar.atan2 r.normal.y r.normal.x : ℝ) = α at nx ny
  -- the line is a quarter turn from its normal, and directions are turned around it
  refine ⟨2 * α + Real.pi, fun c k ang => ?_⟩
  have split : 2 * α + Real.pi - ang = 2 * α - ang + Real.pi := by ring
  rw [apply_mk, apply_mk, height_eq, height_eq]
  refine Vec.ext ?_ ?_
  · simp only [onCircle, Exact.cos_eq, Exact.sin_eq, split, Real.cos_add_pi, Real.cos_sub,
      Real.cos_two_mul, Real.sin_two_mul, nx, ny]
    ring
  · simp only [onCircle, Exact.cos_eq, Exact.sin_eq, split, Real.sin_add_pi, Real.sin_sub,
      Real.cos_two_mul, Real.sin_two_mul, nx, ny]
    linear_combination -2 * k * Real.sin ang * sq_normal unit

end Unit

end Reflection

namespace Exact

variable {c : Vec ℝ} {k : ℝ} (ang : ℝ)

theorem onCircle_sub : (onCircle c k ang).sub c = (Vec.unit ang).scale k := by
  refine Vec.ext ?_ ?_
  · simp only [onCircle, Vec.sub, Vec.scale, Vec.unit, cos_eq]
    ring
  · simp only [onCircle, Vec.sub, Vec.scale, Vec.unit, sin_eq]
    ring

theorem norm_onCircle (hk : 0 ≤ k) : ((onCircle c k ang).sub c).norm = k := by
  rw [onCircle_sub, norm_scale_unit hk]

/-- From the center of a circle that is more than a point, its points are in their directions. -/
theorem direction_onCircle (hk : 0 < k) :
    ∃ n : ℤ, ((onCircle c k ang).sub c).direction = ang + n * (2 * Real.pi) := by
  have cosine := cos_direction ((onCircle c k ang).sub c)
  have sine := sin_direction ((onCircle c k ang).sub c)
  rw [norm_onCircle ang hk.le, onCircle_sub] at cosine sine
  rw [onCircle_sub]
  have same : (((Vec.unit ang).scale k).direction : Real.Angle) = ang :=
    Real.Angle.cos_sin_inj (mul_right_cancel₀ hk.ne' cosine) (mul_right_cancel₀ hk.ne' sine)
  obtain ⟨n, turns⟩ := Real.Angle.angle_eq_iff_two_pi_dvd_sub.mp same
  exact ⟨n, by linear_combination turns⟩

end Exact

namespace Reflection

variable {r : Reflection ℝ} (unit : r.normal.norm = 1)

include unit

/-- A circle is mirrored onto one of the same radius, on which each point is in its direction. -/
theorem onCircle_apply (c : Vec ℝ) {k : ℝ} (ang : ℝ) (hk : 0 ≤ k) :
    r.apply (onCircle c k ang) = onCircle (r.apply c) k
      ((r.apply (onCircle c k ang)).sub (r.apply c)).direction := by
  have size : ((r.apply (onCircle c k ang)).sub (r.apply c)).norm = k := by
    rw [norm_apply_sub unit, Exact.norm_onCircle ang hk]
  have back := Sketch.onCircle_direction (r.apply c) (r.apply (onCircle c k ang))
  rw [size] at back
  exact back.symm

/-- These directions run the other way. -/
theorem exists_direction_apply : ∃ full, ∀ c k ang, 0 < k →
    ∃ n : ℤ, ((r.apply (onCircle c k ang)).sub (r.apply c)).direction =
      full - ang + n * (2 * Real.pi) := by
  obtain ⟨full, turned⟩ := exists_turned unit
  refine ⟨full, fun c k ang hk => ?_⟩
  rw [turned]
  exact Exact.direction_onCircle _ hk

end Reflection

def Line.flip (l : Line ℝ) (origin : Vec ℝ) : Reflection ℝ := ⟨origin, ⟨l.nx, l.ny⟩⟩

namespace Exact

variable (ang : ℝ) (a p : Vec ℝ)

theorem unit_flip : ((Line.through ang a).flip a).normal.norm = 1 := by
  rw [← sq_eq_sq₀ (norm_nonneg _) zero_le_one, norm_sq]
  change (-Real.sin ang) ^ 2 + Real.cos ang ^ 2 = 1 ^ 2
  linear_combination Real.sin_sq_add_cos_sq ang

theorem height_flip :
    ((Line.through ang a).flip a).height p = (Line.through ang a).signedDistance p := by
  rw [signedDistance_through]
  change -Real.sin ang * (p.x - a.x) + Real.cos ang * (p.y - a.y) = _
  ring

/-- A line goes through the points in its direction. -/
theorem signedDistance_onCircle (k : ℝ) :
    (Line.through ang a).signedDistance (onCircle a k ang) = 0 := by
  rw [signedDistance_through]
  simp only [onCircle, cos_eq, sin_eq]
  ring

theorem shortest_eq : (Reflection.shortest : ℝ) = 1 / 2 ^ 52 := by
  have value : (Reflection.shortest : ℝ) = (1 : ℤ) / ((2 ^ 52 : ℕ) : ℤ) := rfl
  rw [value]
  norm_num

/-- A step that is long enough has the normal of its direction. -/
theorem across?_onCircle {t : ℝ} (long : Reflection.shortest < t) :
    Reflection.across? a (onCircle a t ang) = some ((Line.through ang a).flip a) := by
  have ht : 0 < t := by
    rw [shortest_eq] at long
    exact lt_trans (by positivity) long
  have step : (onCircle a t ang).sub a = (Vec.unit ang).scale t := onCircle_sub ang
  have size : (⟨-((Vec.unit ang).scale t).y, ((Vec.unit ang).scale t).x⟩ : Vec ℝ).norm = t := by
    rw [← sq_eq_sq₀ (norm_nonneg _) ht.le, norm_sq]
    simp only [Vec.scale, Vec.unit]
    linear_combination t ^ 2 * Real.sin_sq_add_cos_sq ang
  have apart : ¬ Scalar.le t Reflection.shortest = true := by simpa using long
  rw [Reflection.across?, step, size, if_neg apart]
  refine congrArg some (congrArg (Reflection.mk a) (Vec.ext ?_ ?_))
  · change -(Real.sin ang * t) / t = -Real.sin ang
    field_simp
  · change Real.cos ang * t / t = Real.cos ang
    field_simp

end Exact

namespace Sketch

variable {s : Sketch ℝ} {seg : ObjectId} {l : Segment}

/-- The reflection across a consistent segment that is long enough is the one across the line it
carries: both have one normal and one offset, points are moved by twice their distance from the line
to the other side, and those on the line, the ends among them, stay. -/
theorem reflection_along_line (g : s.Grounded) (hl : s.segment seg = .ok l)
    (consistent : s.Consistent seg .segmentConsistency 2)
    (long : Reflection.shortest < s.value l.t) :
    ∃ r k a b, s.reflection seg = .ok r ∧ s.line seg = .ok k ∧ s.position l.a = .ok a ∧
      s.position l.b = .ok b ∧ r.normal = ⟨k.nx, k.ny⟩ ∧ k.w = r.normal.dot r.origin ∧
      (∀ p, r.apply p = p.sub (Vec.scale ⟨k.nx, k.ny⟩ (2 * k.signedDistance p)) ∧
        k.signedDistance (r.apply p) = -k.signedDistance p ∧
        (r.apply p = p ↔ k.signedDistance p = 0) ∧ r.apply (r.apply p) = p) ∧
      (∀ p q, ((r.apply p).sub (r.apply q)).norm = (p.sub q).norm) ∧
      k.signedDistance a = 0 ∧ k.signedDistance b = 0 := by
  obtain ⟨p, hp⟩ := exists_point.mpr (g.segment hl).1
  obtain ⟨q, hq⟩ := exists_point.mpr (g.segment hl).2
  have ha : s.position l.a = .ok (s.spot p) := position_of_point hp
  have hb : s.position l.b = .ok (s.spot q) := position_of_point hq
  have finish := (consistent_segment_iff hl ha hb).mp consistent
  have across := Exact.across?_onCircle (s.value l.ang) (s.spot p) long
  have reflected : s.reflection seg =
      .ok ((Line.through (s.value l.ang) (s.spot p)).flip (s.spot p)) := by
    refine bind_eq_ok.mpr ⟨l, hl, bind_eq_ok.mpr ⟨_, ha, bind_eq_ok.mpr ⟨_, hb, ?_⟩⟩⟩
    rw [finish, across]
    rfl
  have unit := Exact.unit_flip (s.value l.ang) (s.spot p)
  refine ⟨_, _, _, _, reflected, line_of_segment hl hp, ha, hb, rfl, rfl, fun v => ⟨?_, ?_, ?_, ?_⟩,
    Reflection.norm_apply_sub unit, ?_, ?_⟩
  · rw [Reflection.apply_eq, Exact.height_flip]
    rfl
  · rw [← Exact.height_flip, ← Exact.height_flip, Reflection.height_apply unit]
  · rw [← Exact.height_flip, Reflection.apply_eq_self_iff unit]
  · exact Reflection.apply_apply unit v
  · exact Exact.signedDistance_eq_zero_iff.mpr ⟨0, by simp [Vec.add, Vec.scale]⟩
  · rw [finish, Exact.signedDistance_onCircle]

noncomputable def stroke : Sketch ℝ := ((addSegment ⟨0, 0⟩ ⟨1, 0⟩).run empty).2

theorem reflection_along_line_stroke : ∃ l r k, stroke.segment ⟨3⟩ = .ok l ∧
    stroke.Consistent ⟨3⟩ .segmentConsistency 2 ∧ Reflection.shortest < stroke.value l.t ∧
    stroke.reflection ⟨3⟩ = .ok r ∧ stroke.line ⟨3⟩ = .ok k ∧ r.normal = ⟨k.nx, k.ny⟩ ∧
    ∀ p, k.signedDistance (r.apply p) = -k.signedDistance p := by
  obtain ⟨consistent, l, hl, ha, hb, length, -⟩ :
      stroke.Straight ⟨3⟩ ⟨0, 0⟩ ⟨1, 0⟩ := straight_addSegment .empty _ _
  have measured : stroke.length ⟨3⟩ = .ok ((⟨1, 0⟩ : Vec ℝ).sub ⟨0, 0⟩).norm :=
    bind_eq_ok.mpr ⟨l, hl, bind_eq_ok.mpr ⟨_, hb, bind_eq_ok.mpr ⟨_, ha, rfl⟩⟩⟩
  have one : ((⟨1, 0⟩ : Vec ℝ).sub ⟨0, 0⟩).norm = 1 := by
    rw [← sq_eq_sq₀ (Exact.norm_nonneg _) zero_le_one, Exact.norm_sq]
    norm_num [Vec.sub]
  rw [one, length, Except.ok.injEq] at measured
  have long : Reflection.shortest < stroke.value l.t := by
    rw [measured, Exact.shortest_eq]
    norm_num
  have o : stroke.Ordered := (drawn_addSegment ⟨0, 0⟩ ⟨1, 0⟩ .empty).ordered .empty
  obtain ⟨r, k, a, b, across, along, -, -, normal, -, all, -⟩ :=
    reflection_along_line o.grounded hl consistent long
  exact ⟨l, r, k, hl, consistent, long, across, along, normal, fun p => (all p).2.1⟩

end Sketch

end Drafting
