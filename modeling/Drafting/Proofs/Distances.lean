import Drafting.Proofs.Lines

namespace Drafting

namespace Exact

open Residual

variable (value : Handle → ℝ)

theorem sum_squaredDistance (x1 y1 x2 y2 : Handle) :
    ((squaredDistance x1 y1 x2 y2).map
        (Monomial.evaluateWith (TermFn.ofTrig Real.sin Real.cos) value)).sum =
      (Vec.sub ⟨value x1, value y1⟩ ⟨value x2, value y2⟩).norm ^ 2 := by
  rw [norm_sq]
  simp [squaredDistance, Vec.sub]
  ring

theorem evaluate_pointOnCircle (x y cx cy r : Handle) :
    (pointOnCircle x y cx cy r).evaluate value =
      (Vec.sub ⟨value x, value y⟩ ⟨value cx, value cy⟩).norm ^ 2 - value r ^ 2 := by
  rw [evaluate_eq, pointOnCircle, evaluateWith_sum, List.map_cons, List.sum_cons,
    sum_squaredDistance]
  simp
  ring

theorem evaluate_distancePP (x1 y1 x2 y2 : Handle) (d : ℝ) :
    (distancePP x1 y1 x2 y2 d).evaluate value =
      (Vec.sub ⟨value x1, value y1⟩ ⟨value x2, value y2⟩).norm ^ 2 - d ^ 2 := by
  rw [evaluate_eq, distancePP, Polynomial.evaluateWith_mk, sum_squaredDistance]
  ring

theorem evaluate_pointInMiddle (x1 y1 x2 y2 x3 y3 : Handle) :
    (pointInMiddle x1 y1 x2 y2 x3 y3).evaluate value =
      (Vec.sub ⟨value x1, value y1⟩ ⟨value x2, value y2⟩).norm ^ 2 -
        (Vec.sub ⟨value x3, value y3⟩ ⟨value x2, value y2⟩).norm ^ 2 := by
  rw [evaluate_eq, pointInMiddle, evaluateWith_sum, norm_sq, norm_sq]
  simp [Vec.sub]
  ring

/-- The difference of two squares has the sign of the difference. -/
theorem sign_sq_sub_sq {n d : ℝ} (hn : 0 ≤ n) (hd : 0 ≤ d) :
    (0 < n ^ 2 - d ^ 2 ↔ d < n) ∧ (n ^ 2 - d ^ 2 = 0 ↔ n = d) ∧ (n ^ 2 - d ^ 2 < 0 ↔ n < d) := by
  refine ⟨?_, ?_, ?_⟩
  · rw [sub_pos, sq_lt_sq₀ hd hn]
  · rw [sub_eq_zero, sq_eq_sq₀ hn hd]
  · rw [sub_neg, sq_lt_sq₀ hn hd]

/-- A step with no part along a direction and none across it is no step. -/
theorem eq_zero_of_components {ang x y : ℝ} (along : Real.cos ang * x + Real.sin ang * y = 0)
    (across : Real.cos ang * y - Real.sin ang * x = 0) : x = 0 ∧ y = 0 := by
  obtain ⟨k, same⟩ := exists_along_iff (d := ⟨x, y⟩) |>.mp across
  obtain ⟨rfl, rfl⟩ := Vec.mk.inj same
  simp only [Vec.unit] at along ⊢
  have none : k = 0 := by linear_combination along - k * Real.cos_sq_add_sin_sq ang
  simp [none]

/-- The middle of a step of length `t` from `a` in direction `ang`. -/
theorem middle_iff {ang t : ℝ} {a b p : Vec ℝ} (ht : t ≠ 0)
    (hx : a.x + Real.cos ang * t - b.x = 0) (hy : a.y + Real.sin ang * t - b.y = 0) :
    (a.sub p).norm ^ 2 - (b.sub p).norm ^ 2 = 0 ∧ (Line.through ang a).signedDistance p = 0 ↔
      p = (a.add b).shrink 2 := by
  have middle : p = (a.add b).shrink 2 ↔ 2 * p.x - a.x - b.x = 0 ∧ 2 * p.y - a.y - b.y = 0 := by
    rw [Vec.ext_iff]
    simp only [Vec.shrink, Vec.add]
    constructor
    · rintro ⟨h, h'⟩
      constructor <;> linarith
    · rintro ⟨h, h'⟩
      constructor <;> linarith
  have bx : b.x = a.x + Real.cos ang * t := by linarith
  have b_y : b.y = a.y + Real.sin ang * t := by linarith
  -- twice the step from the middle to the point, in its parts along the segment and across
  have between : (a.sub p).norm ^ 2 - (b.sub p).norm ^ 2 =
      t * (Real.cos ang * (2 * p.x - a.x - b.x) + Real.sin ang * (2 * p.y - a.y - b.y)) := by
    rw [norm_sq, norm_sq, bx, b_y]
    simp only [Vec.sub, bx, b_y]
    ring
  have beside : 2 * (Line.through ang a).signedDistance p =
      Real.cos ang * (2 * p.y - a.y - b.y) - Real.sin ang * (2 * p.x - a.x - b.x) := by
    rw [signedDistance_through, bx, b_y]
    ring
  rw [middle]
  constructor
  · rintro ⟨equidistant, incident⟩
    rw [between] at equidistant
    rw [incident, mul_zero] at beside
    exact eq_zero_of_components ((mul_eq_zero.mp equidistant).resolve_left ht) beside.symm
  · rintro ⟨zx, zy⟩
    rw [zx, zy, mul_zero, mul_zero] at between beside
    constructor
    · rw [between, add_zero, mul_zero]
    · linarith

end Exact

namespace Constraint

open Sketch

section Evaluated

variable [Written ℝ] {c e : Constraint ℝ} {u : Sketch ℝ} {pt seg rd p₁ p₂ : ObjectId}

theorem On.pointOnCircle (h : c.On .pointOnCircle [pt, rd] u) :
    ∃ p r m, u.position pt = .ok p ∧ u.round rd = .ok r ∧ u.position r.c = .ok m ∧
      c.residualValues u = .ok [(p.sub m).norm ^ 2 - u.value r.r ^ 2] := by
  obtain ⟨s, t, g, keeps, fits, scope⟩ := h.exists_scope rfl
  obtain ⟨isPoint, isRound⟩ := fits_pair.mp fits
  obtain ⟨p, hp⟩ := exists_point.mpr isPoint
  obtain ⟨r, m, hr, hm⟩ := g.exists_round isRound
  have values : c.residualValues u = .ok [(Residual.pointOnCircle _ _ _ _ _).evaluate u.value] :=
    residualValues_of_held (scope _ (Gather.adds_pointOnCircle hp hr hm)) rfl
  rw [Exact.evaluate_pointOnCircle] at values
  exact ⟨_, r, _, position_of_point (keeps.asA hp), keeps.asA hr, position_of_point (keeps.asA hm),
    values⟩

theorem On.distancePP (h : c.On .distancePP [p₁, p₂] u) :
    ∃ v w, u.position p₁ = .ok v ∧ u.position p₂ = .ok w ∧
      c.residualValues u = .ok [(v.sub w).norm ^ 2 - c.resolved.number "distance" ^ 2] := by
  obtain ⟨s, t, g, keeps, fits, scope⟩ := h.exists_scope rfl
  obtain ⟨isFirst, isSecond⟩ := fits_pair.mp fits
  obtain ⟨p, hp⟩ := exists_point.mpr isFirst
  obtain ⟨q, hq⟩ := exists_point.mpr isSecond
  have values : c.residualValues u = .ok [(Residual.distancePP _ _ _ _ _).evaluate u.value] :=
    residualValues_of_held (scope _ (Gather.adds_twoPoints hp hq)) rfl
  rw [Exact.evaluate_distancePP] at values
  exact ⟨_, _, position_of_point (keeps.asA hp), position_of_point (keeps.asA hq), values⟩

theorem On.pointInMiddle (h : c.On .pointInMiddle [pt, seg] u) :
    ∃ p l a b, u.position pt = .ok p ∧ u.segment seg = .ok l ∧ u.position l.a = .ok a ∧
      u.position l.b = .ok b ∧
      c.residualValues u = .ok [(a.sub p).norm ^ 2 - (b.sub p).norm ^ 2] := by
  obtain ⟨p, l, a, b, hp, hl, ha, hb, residuals⟩ := h.residuals_pointInMiddle
  have values : c.residualValues u = .ok [(Residual.pointInMiddle _ _ _ _ _ _).evaluate u.value] :=
    residualValues_of residuals
  rw [Exact.evaluate_pointInMiddle] at values
  exact ⟨_, l, _, _, position_of_point hp, hl, position_of_point ha, position_of_point hb, values⟩

/-- Besides what a point in the middle has to fulfil, it is on the segment's line. -/
theorem On.symmetry (h : c.On .symmetry [pt, seg] u) :
    ∃ p l a b, u.position pt = .ok p ∧ u.segment seg = .ok l ∧ u.position l.a = .ok a ∧
      u.position l.b = .ok b ∧
      c.residualValues u = .ok [(a.sub p).norm ^ 2 - (b.sub p).norm ^ 2,
        (Line.through (u.value l.ang) a).signedDistance p] := by
  obtain ⟨p, l, a, b, hp, hl, ha, hb, residuals⟩ := h.residuals_symmetry
  have values : c.residualValues u = .ok [(Residual.pointInMiddle _ _ _ _ _ _).evaluate u.value,
      (Residual.pointOnLine _ _ _ _ _).evaluate u.value] := residualValues_of residuals
  rw [Exact.evaluate_pointInMiddle, Exact.evaluate_pointOnLine] at values
  exact ⟨_, l, _, _, position_of_point hp, hl, position_of_point ha, position_of_point hb, values⟩

/-- The end of a segment less what its angle and its length make of the start. -/
theorem On.segmentConsistency (h : e.On .segmentConsistency [seg] u) :
    ∃ l a b, u.segment seg = .ok l ∧ u.position l.a = .ok a ∧ u.position l.b = .ok b ∧
      e.residualValues u = .ok [a.x + Real.cos (u.value l.ang) * u.value l.t - b.x,
        a.y + Real.sin (u.value l.ang) * u.value l.t - b.y] := by
  obtain ⟨l, a, b, hl, ha, hb, residuals⟩ := h.residuals_segmentConsistency
  have values : e.residualValues u = .ok ((Residual.polar _ _ _ _ _ _).map (·.evaluate u.value)) :=
    residualValues_of residuals
  rw [Exact.evaluate_polar] at values
  exact ⟨l, _, _, hl, position_of_point ha, position_of_point hb, values⟩

/-- A point is symmetric to the ends of a consistent segment that has a length if and only if it is
the middle of them. -/
theorem On.symmetry_iff (h : c.On .symmetry [pt, seg] u) (he : e.On .segmentConsistency [seg] u)
    (consistent : e.residualValues u = .ok [0, 0]) :
    ∃ p l a b, u.position pt = .ok p ∧ u.segment seg = .ok l ∧ u.position l.a = .ok a ∧
      u.position l.b = .ok b ∧
      (u.value l.t ≠ 0 → (c.residualValues u = .ok [0, 0] ↔ p = (a.add b).shrink 2)) := by
  obtain ⟨p, l, a, b, hp, hl, ha, hb, values⟩ := h.symmetry
  obtain ⟨l', a', b', hl', ha', hb', polar⟩ := he.segmentConsistency
  cases hl.symm.trans hl'
  cases ha.symm.trans ha'
  cases hb.symm.trans hb'
  rw [consistent] at polar
  injection polar with polar
  simp only [List.cons.injEq, and_true] at polar
  refine ⟨p, l, a, b, hp, hl, ha, hb, fun ht => ?_⟩
  rw [values, ← Exact.middle_iff ht polar.1.symm polar.2.symm]
  simp

variable (c u) in
/-- Residuals about distances compare the squares of what is apart in the sketch; that of two points
has the sign of how much further than the given distance they are apart. On a segment of a length,
with its end where its angle and length put it, the residuals of symmetry are zero exactly in the
middle. -/
theorem residualValues_apart :
    (∀ pt rd, c.On .pointOnCircle [pt, rd] u →
      ∃ p r m, u.position pt = .ok p ∧ u.round rd = .ok r ∧ u.position r.c = .ok m ∧
        c.residualValues u = .ok [(p.sub m).norm ^ 2 - u.value r.r ^ 2]) ∧
    (∀ p₁ p₂, c.On .distancePP [p₁, p₂] u →
      ∃ v w x, u.position p₁ = .ok v ∧ u.position p₂ = .ok w ∧ c.residualValues u = .ok [x] ∧
        x = (v.sub w).norm ^ 2 - c.resolved.number "distance" ^ 2 ∧
        (0 ≤ c.resolved.number "distance" →
          (0 < x ↔ c.resolved.number "distance" < (v.sub w).norm) ∧
          (x = 0 ↔ (v.sub w).norm = c.resolved.number "distance") ∧
          (x < 0 ↔ (v.sub w).norm < c.resolved.number "distance"))) ∧
    (∀ pt seg, c.On .pointInMiddle [pt, seg] u →
      ∃ p l a b, u.position pt = .ok p ∧ u.segment seg = .ok l ∧ u.position l.a = .ok a ∧
        u.position l.b = .ok b ∧
        c.residualValues u = .ok [(a.sub p).norm ^ 2 - (b.sub p).norm ^ 2]) ∧
    ∀ pt seg e, c.On .symmetry [pt, seg] u → On e .segmentConsistency [seg] u →
      e.residualValues u = .ok [0, 0] →
      ∃ p l a b, u.position pt = .ok p ∧ u.segment seg = .ok l ∧ u.position l.a = .ok a ∧
        u.position l.b = .ok b ∧
        (u.value l.t ≠ 0 → (c.residualValues u = .ok [0, 0] ↔ p = (a.add b).shrink 2)) := by
  refine ⟨fun _ _ h => h.pointOnCircle, fun p₁ p₂ h => ?_, fun _ _ h => h.pointInMiddle,
    fun _ _ _ h he => h.symmetry_iff he⟩
  obtain ⟨v, w, hv, hw, values⟩ := h.distancePP
  exact ⟨v, w, _, hv, hw, values, rfl, Exact.sign_sq_sub_sq (Exact.norm_nonneg _)⟩

end Evaluated

noncomputable def drawnBeam : Sketch ℝ :=
  let beam := ((addSegment ⟨-1, 0⟩ ⟨1, 0⟩).run .empty).2
  let disc := ((addCircle ⟨1, 1⟩ 1).run beam).2
  ((addPoint ⟨0, 0⟩).run disc).2

/-- The segment has the direction of its ends and the distance between them. -/
noncomputable def beam : Sketch ℝ := (drawnBeam.setValue ⟨5, 1⟩ 0).setValue ⟨6, 1⟩ (1 + 1)

theorem grounded_drawnBeam : drawnBeam.Grounded := by
  have beam := (drawn_addSegment (⟨-1, 0⟩ : Vec ℝ) ⟨1, 0⟩ .empty).ordered .empty
  have disc := (drawn_addCircle (⟨1, 1⟩ : Vec ℝ) 1 beam).ordered beam
  exact ((drawn_addPoint ⟨0, 0⟩ disc).1.ordered disc).grounded

theorem keeps_beam : drawnBeam.Keeps beam := fun _ e he => ⟨e, he, rfl⟩

/-- The start is off the circle and nearer to its center than asked for, the center nearer to the
start than to the end, and the point in the middle. -/
theorem residualValues_apart_beam :
    (∃ c : Constraint ℝ, c.On .pointOnCircle [⟨1⟩, ⟨5⟩] beam ∧
      ∀ [Written ℝ], c.residualValues beam = .ok [4]) ∧
    (∃ c : Constraint ℝ, c.On .distancePP [⟨1⟩, ⟨4⟩] beam ∧
      ∀ [Written ℝ], c.residualValues beam = .ok [-4] ∧
        (Vec.sub ⟨-1, 0⟩ ⟨1, 1⟩ : Vec ℝ).norm < 3) ∧
    (∃ c : Constraint ℝ, c.On .pointInMiddle [⟨4⟩, ⟨3⟩] beam ∧
      ∀ [Written ℝ], c.residualValues beam = .ok [4]) ∧
    ∃ c e : Constraint ℝ, c.On .symmetry [⟨6⟩, ⟨3⟩] beam ∧ e.On .segmentConsistency [⟨3⟩] beam ∧
      ∀ [Written ℝ], e.residualValues beam = .ok [0, 0] ∧ c.residualValues beam = .ok [0, 0] := by
  have start : beam.position ⟨1⟩ = .ok ⟨-1, 0⟩ := rfl
  have finish : beam.position ⟨2⟩ = .ok ⟨1, 0⟩ := rfl
  have center : beam.position ⟨4⟩ = .ok ⟨1, 1⟩ := rfl
  have segment : beam.segment ⟨3⟩ = .ok ⟨⟨1⟩, ⟨2⟩, ⟨5, 1⟩, ⟨6, 1⟩⟩ := rfl
  have length : beam.value ⟨6, 1⟩ = 1 + 1 := rfl
  refine ⟨?_, ?_, ?_, ?_⟩
  · obtain ⟨c, on, -⟩ := exists_on .pointOnCircle [⟨1⟩, ⟨5⟩] .empty grounded_drawnBeam rfl
      (.cons ⟨_, rfl, rfl⟩ (.cons ⟨_, rfl, rfl⟩ .nil)) keeps_beam
    refine ⟨c, on, fun {_} => ?_⟩
    obtain ⟨p, r, m, hp, hr, hm, values⟩ := (residualValues_apart c beam).1 _ _ on
    have round : beam.round ⟨5⟩ = .ok ⟨⟨4⟩, ⟨9, 1⟩⟩ := rfl
    have radius : beam.value ⟨9, 1⟩ = 1 := rfl
    cases start.symm.trans hp
    cases round.symm.trans hr
    cases center.symm.trans hm
    rw [values, radius, Exact.norm_sq]
    norm_num [Vec.sub]
  · obtain ⟨c, on, kind, given⟩ := exists_on .distancePP [⟨1⟩, ⟨4⟩]
      (Table.empty.insert "distance" (.number 3)) grounded_drawnBeam rfl
      (.cons ⟨_, rfl, rfl⟩ (.cons ⟨_, rfl, rfl⟩ .nil)) keeps_beam
    refine ⟨c, on, fun {_} => ?_⟩
    obtain ⟨v, w, x, hv, hw, values, hx, sign⟩ := (residualValues_apart c beam).2.1 _ _ on
    have distance : c.resolved.number "distance" = 3 := by
      rw [resolved, kind, given]
      rfl
    cases start.symm.trans hv
    cases center.symm.trans hw
    rw [distance] at hx sign
    have less : x = -4 := by
      rw [hx, Exact.norm_sq]
      norm_num [Vec.sub]
    rw [less] at values sign
    have nearer : (Vec.sub ⟨-1, 0⟩ ⟨1, 1⟩ : Vec ℝ).norm < 3 :=
      (sign (by norm_num)).2.2.mp (by norm_num)
    exact ⟨values, nearer⟩
  · obtain ⟨c, on, -⟩ := exists_on .pointInMiddle [⟨4⟩, ⟨3⟩] .empty grounded_drawnBeam rfl
      (.cons ⟨_, rfl, rfl⟩ (.cons ⟨_, rfl, rfl⟩ .nil)) keeps_beam
    refine ⟨c, on, fun {_} => ?_⟩
    obtain ⟨p, l, a, b, hp, hl, ha, hb, values⟩ := (residualValues_apart c beam).2.2.1 _ _ on
    cases center.symm.trans hp
    cases segment.symm.trans hl
    cases start.symm.trans ha
    cases finish.symm.trans hb
    rw [values, Exact.norm_sq, Exact.norm_sq]
    norm_num [Vec.sub]
  · obtain ⟨c, on, -⟩ := exists_on .symmetry [⟨6⟩, ⟨3⟩] .empty grounded_drawnBeam rfl
      (.cons ⟨_, rfl, rfl⟩ (.cons ⟨_, rfl, rfl⟩ .nil)) keeps_beam
    obtain ⟨e, on', -⟩ := exists_on .segmentConsistency [⟨3⟩] .empty grounded_drawnBeam rfl
      (.cons ⟨_, rfl, rfl⟩ .nil) keeps_beam
    refine ⟨c, e, on, on', fun {_} => ?_⟩
    have consistent : e.residualValues beam = .ok [0, 0] := by
      obtain ⟨l, a, b, hl, ha, hb, values⟩ := on'.segmentConsistency
      have direction : beam.value ⟨5, 1⟩ = 0 := rfl
      cases segment.symm.trans hl
      cases start.symm.trans ha
      cases finish.symm.trans hb
      rw [values, length, direction]
      simp
    obtain ⟨p, l, a, b, hp, hl, ha, hb, middle⟩ :=
      (residualValues_apart c beam).2.2.2 _ _ e on on' consistent
    have point : beam.position ⟨6⟩ = .ok ⟨0, 0⟩ := rfl
    cases point.symm.trans hp
    cases segment.symm.trans hl
    cases start.symm.trans ha
    cases finish.symm.trans hb
    have apart : beam.value ⟨6, 1⟩ ≠ 0 := by
      rw [length]
      norm_num
    refine ⟨consistent, (middle apart).mpr ?_⟩
    ext
    · norm_num [Vec.shrink, Vec.add]
    · norm_num [Vec.shrink, Vec.add]

end Constraint

end Drafting
