import Drafting.Proofs.Exact
import Drafting.Proofs.Residuals

namespace Drafting

noncomputable def Vec.unit (ang : ℝ) : Vec ℝ := ⟨Real.cos ang, Real.sin ang⟩

namespace Exact

theorem signedDistance_through (ang : ℝ) (a p : Vec ℝ) :
    (Line.through ang a).signedDistance p =
      Real.cos ang * (p.y - a.y) - Real.sin ang * (p.x - a.x) := by
  have frame : (Line.through ang a).signedDistance p =
      -Real.sin ang * p.x + Real.cos ang * p.y - (-Real.sin ang * a.x + Real.cos ang * a.y) := rfl
  rw [frame]
  ring

theorem norm_scale_unit {ang k : ℝ} (hk : 0 ≤ k) : ((Vec.unit ang).scale k).norm = k := by
  rw [← sq_eq_sq₀ (norm_nonneg _) hk, norm_sq]
  simp only [Vec.scale, Vec.unit]
  linear_combination k ^ 2 * Real.cos_sq_add_sin_sq ang

/-- A step with no part across a direction goes along it. -/
theorem exists_along_iff {ang : ℝ} {d : Vec ℝ} : Real.cos ang * d.y - Real.sin ang * d.x = 0 ↔
    ∃ k, d = (Vec.unit ang).scale k := by
  constructor
  · intro across
    have turn := Real.cos_sq_add_sin_sq ang
    refine ⟨Real.cos ang * d.x + Real.sin ang * d.y, Vec.ext ?_ ?_⟩
    · simp only [Vec.scale, Vec.unit]
      linear_combination -d.x * turn - Real.sin ang * across
    · simp only [Vec.scale, Vec.unit]
      linear_combination -d.y * turn + Real.cos ang * across
  · rintro ⟨k, rfl⟩
    simp only [Vec.scale, Vec.unit]
    ring

/-- A line has the points that some step along it leads to. -/
theorem signedDistance_eq_zero_iff {ang : ℝ} {a p : Vec ℝ} :
    (Line.through ang a).signedDistance p = 0 ↔ ∃ k, p = a.add ((Vec.unit ang).scale k) := by
  rw [signedDistance_through]
  have step : Real.cos ang * (p.y - a.y) - Real.sin ang * (p.x - a.x) = 0 ↔
      ∃ k, p.sub a = (Vec.unit ang).scale k := exists_along_iff (d := p.sub a)
  rw [step]
  refine exists_congr fun k => ?_
  simp only [Vec.ext_iff, Vec.sub, Vec.add]
  rw [sub_eq_iff_eq_add', sub_eq_iff_eq_add']

end Exact

/-- How far beyond the distance `d` a point is from a line, on the side that is wanted: the positive
one, or the negative one if `inverted`. -/
noncomputable def Line.excess (l : Line ℝ) (p : Vec ℝ) (d : ℝ) (inverted : Bool) : ℝ :=
  if inverted then l.signedDistance p + d else l.signedDistance p - d

/-- The side decides with which sign the distance is taken off. -/
theorem Line.excess_eq (l : Line ℝ) (p : Vec ℝ) (d : ℝ) (inverted : Bool) :
    l.excess p d inverted = l.signedDistance p + -Residual.sideSign inverted * d := by
  cases inverted with
  | false => simp [excess, Residual.sideSign, sub_eq_add_neg]
  | true => simp [excess, Residual.sideSign]

namespace Exact

open Residual

variable (value : Handle → ℝ)

/-- The products that every residual over a line is made of. -/
theorem sum_signedDistance (x y ax ay ang : Handle) :
    ((signedDistance x y ax ay ang).map
        (Monomial.evaluateWith (TermFn.ofTrig Real.sin Real.cos) value)).sum =
      (Line.through (value ang) ⟨value ax, value ay⟩).signedDistance ⟨value x, value y⟩ := by
  rw [signedDistance_through]
  simp [signedDistance]
  ring

theorem evaluate_pointOnLine (x y ax ay ang : Handle) :
    (pointOnLine x y ax ay ang).evaluate value =
      (Line.through (value ang) ⟨value ax, value ay⟩).signedDistance ⟨value x, value y⟩ := by
  rw [evaluate_eq, pointOnLine, evaluateWith_sum, sum_signedDistance]

theorem evaluate_distancePL (x y ang ax ay : Handle) (d : ℝ) (inverted : Bool) :
    (distancePL x y ang ax ay d inverted).evaluate value =
      (Line.through (value ang) ⟨value ax, value ay⟩).excess ⟨value x, value y⟩ d inverted := by
  rw [evaluate_eq, distancePL, Polynomial.evaluateWith_mk, sum_signedDistance, Line.excess_eq,
    add_comm]

theorem evaluate_tangent (ang ax ay cx cy r : Handle) (inverted : Bool) :
    (tangent ang ax ay cx cy r inverted).evaluate value =
      (Line.through (value ang) ⟨value ax, value ay⟩).excess ⟨value cx, value cy⟩ (value r)
        inverted := by
  rw [evaluate_eq, tangent, evaluateWith_sum, List.map_append, List.sum_append, sum_signedDistance,
    Line.excess_eq]
  simp [Monomial.evaluateWith_mk]

end Exact

theorem Sketch.line_of_segment {K : Type} [Scalar K] {s : Sketch K} {id : ObjectId} {l : Segment}
    {a : Point} (hl : s.segment id = .ok l) (ha : s.point l.a = .ok a) :
    s.line id = .ok (Line.through (s.value l.ang) (s.spot a)) :=
  bind_eq_ok.mpr ⟨l, hl, bind_eq_ok.mpr ⟨s.spot a, position_of_point ha, rfl⟩⟩

namespace Constraint

open Sketch

section Evaluated

variable [Written ℝ] {c : Constraint ℝ} {u : Sketch ℝ} {pt seg rd l₁ l₂ arc : ObjectId}

theorem On.pointOnLine (h : c.On .pointOnLine [pt, seg] u) :
    ∃ l p, u.line seg = .ok l ∧ u.position pt = .ok p ∧
      c.residualValues u = .ok [l.signedDistance p] := by
  obtain ⟨p, l, a, hp, hl, ha, residuals⟩ := h.residuals_pointOnLine
  have values : c.residualValues u = .ok [(Residual.pointOnLine _ _ _ _ _).evaluate u.value] :=
    residualValues_of residuals
  rw [Exact.evaluate_pointOnLine] at values
  exact ⟨_, _, line_of_segment hl ha, position_of_point hp, values⟩

theorem On.distancePL (h : c.On .distancePL [pt, seg] u) :
    ∃ l p, u.line seg = .ok l ∧ u.position pt = .ok p ∧
      c.residualValues u =
        .ok [l.excess p (c.resolved.number "distance") (c.resolved.flag "inverted")] := by
  obtain ⟨s, t, g, keeps, fits, scope⟩ := h.exists_scope rfl
  obtain ⟨p, l, a, b, hp, hl, ha, hb⟩ := g.exists_pointAndSegment fits
  have values : c.residualValues u = .ok [(Residual.distancePL _ _ _ _ _ _ _).evaluate u.value] :=
    residualValues_of_held (scope _ (Gather.adds_distancePL hp hl ha)) rfl
  rw [Exact.evaluate_distancePL] at values
  exact ⟨_, _, line_of_segment (keeps.asA hl) (keeps.asA ha), position_of_point (keeps.asA hp),
    values⟩

/-- On the wanted side of the line, the center is as far from it as the radius is long. -/
theorem On.tangentLC (h : c.On .tangentLC [seg, rd] u) :
    ∃ l r m, u.line seg = .ok l ∧ u.round rd = .ok r ∧ u.position r.c = .ok m ∧
      c.residualValues u = .ok [l.excess m (u.value r.r) (c.resolved.flag "inverted")] := by
  obtain ⟨l, a, r, m, hl, ha, hr, hm, residuals⟩ := h.residuals_tangentLC
  have values : c.residualValues u = .ok [(Residual.tangent _ _ _ _ _ _ _).evaluate u.value] :=
    residualValues_of residuals
  rw [Exact.evaluate_tangent] at values
  exact ⟨_, r, _, line_of_segment hl ha, hr, position_of_point hm, values⟩

/-- As for a line and an arc, with a side for each of the lines. -/
theorem On.fillet (h : c.On .fillet [l₁, l₂, arc] u) :
    ∃ k₁ k₂ x m, u.line l₁ = .ok k₁ ∧ u.line l₂ = .ok k₂ ∧ u.arc arc = .ok x ∧
      u.position x.c = .ok m ∧
      c.residualValues u = .ok [k₁.excess m (u.value x.r) (c.resolved.flag "inverted1"),
        k₂.excess m (u.value x.r) (c.resolved.flag "inverted2")] := by
  obtain ⟨k₁, a₁, k₂, a₂, x, m, h₁, ha₁, h₂, ha₂, hx, hm, residuals⟩ := h.residuals_fillet
  have values : c.residualValues u = .ok [(Residual.tangent _ _ _ _ _ _ _).evaluate u.value,
      (Residual.tangent _ _ _ _ _ _ _).evaluate u.value] := residualValues_of residuals
  rw [Exact.evaluate_tangent, Exact.evaluate_tangent] at values
  exact ⟨_, _, x, _, line_of_segment h₁ ha₁, line_of_segment h₂ ha₂, hx, position_of_point hm,
    values⟩

variable (c u) in
/-- Whatever values the parameters have, the residuals of a constraint over a line are the signed
distances from that line as the sketch measures them, less what the constraint asks for on its
side. -/
theorem residualValues_offLine :
    (∀ pt seg, c.On .pointOnLine [pt, seg] u →
      ∃ l p, u.line seg = .ok l ∧ u.position pt = .ok p ∧
        c.residualValues u = .ok [l.signedDistance p]) ∧
    (∀ pt seg, c.On .distancePL [pt, seg] u →
      ∃ l p, u.line seg = .ok l ∧ u.position pt = .ok p ∧
        c.residualValues u =
          .ok [l.excess p (c.resolved.number "distance") (c.resolved.flag "inverted")]) ∧
    (∀ seg rd, c.On .tangentLC [seg, rd] u →
      ∃ l r m, u.line seg = .ok l ∧ u.round rd = .ok r ∧ u.position r.c = .ok m ∧
        c.residualValues u = .ok [l.excess m (u.value r.r) (c.resolved.flag "inverted")]) ∧
    ∀ l₁ l₂ arc, c.On .fillet [l₁, l₂, arc] u →
      ∃ k₁ k₂ x m, u.line l₁ = .ok k₁ ∧ u.line l₂ = .ok k₂ ∧ u.arc arc = .ok x ∧
        u.position x.c = .ok m ∧
        c.residualValues u = .ok [k₁.excess m (u.value x.r) (c.resolved.flag "inverted1"),
          k₂.excess m (u.value x.r) (c.resolved.flag "inverted2")] :=
  ⟨fun _ _ h => h.pointOnLine, fun _ _ h => h.distancePL, fun _ _ h => h.tangentLC,
    fun _ _ _ h => h.fillet⟩

end Evaluated

noncomputable def drawnCorner : Sketch ℝ :=
  let floor := ((addSegment ⟨0, 0⟩ ⟨1, 0⟩).run .empty).2
  let wall := ((addSegment ⟨0, 0⟩ ⟨0, 1⟩).run floor).2
  ((addArc ⟨1, 1⟩ 1 0 Real.pi).run wall).2

/-- The segments have the directions of a floor and a wall. -/
noncomputable def corner : Sketch ℝ :=
  (drawnCorner.setValue ⟨5, 1⟩ 0).setValue ⟨11, 1⟩ (Scalar.atan2 1 0)

theorem grounded_drawnCorner : drawnCorner.Grounded := by
  have floor := (drawn_addSegment (⟨0, 0⟩ : Vec ℝ) ⟨1, 0⟩ .empty).ordered .empty
  have wall := (drawn_addSegment (⟨0, 0⟩ : Vec ℝ) ⟨0, 1⟩ floor).ordered floor
  exact ((drawn_addArc ⟨1, 1⟩ 1 0 Real.pi wall).ordered wall).grounded

theorem keeps_corner : drawnCorner.Keeps corner := fun _ e he => ⟨e, he, rfl⟩

/-- The center of the arc is one above the floor and one behind the wall. -/
theorem residualValues_offLine_corner :
    (∃ c : Constraint ℝ, c.On .pointOnLine [⟨7⟩, ⟨3⟩] corner ∧
      ∀ [Written ℝ], c.residualValues corner = .ok [1]) ∧
    (∃ c : Constraint ℝ, c.On .distancePL [⟨7⟩, ⟨6⟩] corner ∧
      ∀ [Written ℝ], c.residualValues corner = .ok [-1 + 5]) ∧
    (∃ c : Constraint ℝ, c.On .tangentLC [⟨6⟩, ⟨10⟩] corner ∧
      ∀ [Written ℝ], c.residualValues corner = .ok [-1 - 1]) ∧
    ∃ c : Constraint ℝ, c.On .fillet [⟨3⟩, ⟨6⟩, ⟨10⟩] corner ∧
      ∀ [Written ℝ], c.residualValues corner = .ok [1 - 1, -1 + 1] := by
  have floor : corner.line ⟨3⟩ = .ok (Line.through 0 ⟨0, 0⟩) := rfl
  have wall : corner.line ⟨6⟩ = .ok (Line.through (Scalar.atan2 1 0) ⟨0, 0⟩) := rfl
  have center : corner.position ⟨7⟩ = .ok ⟨1, 1⟩ := rfl
  have above : (Line.through 0 ⟨0, 0⟩).signedDistance (⟨1, 1⟩ : Vec ℝ) = 1 := by
    simp [Exact.signedDistance_through]
  have behind : (Line.through (Scalar.atan2 1 0) ⟨0, 0⟩).signedDistance (⟨1, 1⟩ : Vec ℝ) = -1 := by
    have upright : (Scalar.atan2 1 0 : ℝ) = Real.pi / 2 := Complex.arg_I
    simp [Exact.signedDistance_through, upright]
  refine ⟨?_, ?_, ?_, ?_⟩
  · obtain ⟨c, on, -⟩ := exists_on .pointOnLine [⟨7⟩, ⟨3⟩] .empty grounded_drawnCorner rfl
      (.cons ⟨_, rfl, rfl⟩ (.cons ⟨_, rfl, rfl⟩ .nil)) keeps_corner
    refine ⟨c, on, fun {_} => ?_⟩
    obtain ⟨l, p, hl, hp, values⟩ := (residualValues_offLine c corner).1 _ _ on
    cases floor.symm.trans hl
    cases center.symm.trans hp
    rw [values, above]
  · obtain ⟨c, on, kind, given⟩ := exists_on .distancePL [⟨7⟩, ⟨6⟩]
      ((Table.empty.insert "distance" (.number 5)).insert "inverted" (.flag true))
      grounded_drawnCorner rfl (.cons ⟨_, rfl, rfl⟩ (.cons ⟨_, rfl, rfl⟩ .nil)) keeps_corner
    refine ⟨c, on, fun {_} => ?_⟩
    obtain ⟨l, p, hl, hp, values⟩ := (residualValues_offLine c corner).2.1 _ _ on
    have distance : c.resolved.number "distance" = 5 := by
      rw [resolved, kind, given]
      rfl
    have inverted : c.resolved.flag "inverted" = true := by
      rw [resolved, kind, given]
      rfl
    cases wall.symm.trans hl
    cases center.symm.trans hp
    rw [values, distance, inverted, Line.excess, if_pos rfl, behind]
  · obtain ⟨c, on, kind, given⟩ := exists_on .tangentLC [⟨6⟩, ⟨10⟩] .empty grounded_drawnCorner rfl
      (.cons ⟨_, rfl, rfl⟩ (.cons ⟨_, rfl, rfl⟩ .nil)) keeps_corner
    refine ⟨c, on, fun {_} => ?_⟩
    obtain ⟨l, r, m, hl, hr, hm, values⟩ := (residualValues_offLine c corner).2.2.1 _ _ on
    have inverted : c.resolved.flag "inverted" = false := by
      rw [resolved, kind, given]
      rfl
    have round : corner.round ⟨10⟩ = .ok ⟨⟨7⟩, ⟨19, 1⟩⟩ := rfl
    have radius : corner.value ⟨19, 1⟩ = 1 := rfl
    cases wall.symm.trans hl
    cases round.symm.trans hr
    cases center.symm.trans hm
    rw [values, radius, inverted, Line.excess, if_neg Bool.false_ne_true, behind]
  · obtain ⟨c, on, kind, given⟩ := exists_on .fillet [⟨3⟩, ⟨6⟩, ⟨10⟩]
      (Table.empty.insert "inverted2" (.flag true)) grounded_drawnCorner rfl
      (.cons ⟨_, rfl, rfl⟩ (.cons ⟨_, rfl, rfl⟩ (.cons ⟨_, rfl, rfl⟩ .nil))) keeps_corner
    refine ⟨c, on, fun {_} => ?_⟩
    obtain ⟨k₁, k₂, x, m, h₁, h₂, hx, hm, values⟩ :=
      (residualValues_offLine c corner).2.2.2 _ _ _ on
    have arc : corner.arc ⟨10⟩ = .ok ⟨⟨8⟩, ⟨9⟩, ⟨7⟩, ⟨19, 1⟩, ⟨20, 1⟩, ⟨21, 1⟩⟩ := rfl
    have radius : corner.value ⟨19, 1⟩ = 1 := rfl
    have inverted1 : c.resolved.flag "inverted1" = false := by
      rw [resolved, kind, given]
      rfl
    have inverted2 : c.resolved.flag "inverted2" = true := by
      rw [resolved, kind, given]
      rfl
    cases floor.symm.trans h₁
    cases wall.symm.trans h₂
    cases arc.symm.trans hx
    cases center.symm.trans hm
    rw [values, radius, inverted1, inverted2, Line.excess, Line.excess, if_neg Bool.false_ne_true,
      if_pos rfl, above, behind]

end Constraint

end Drafting
