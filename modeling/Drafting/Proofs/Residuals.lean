import Drafting.Proofs.Attachment

namespace Drafting

namespace Constraint

open Sketch

variable {K : Type} [Scalar K] [Written K] {c : Constraint K} {u : Sketch K} {k : Kind}
  {pt rd seg seg₁ seg₂ start finish l₁ l₂ arc curve : ObjectId}

theorem On.residuals_pointOnLine (h : c.On .pointOnLine [pt, seg] u) :
    ∃ p l a, u.point pt = .ok p ∧ u.segment seg = .ok l ∧ u.point l.a = .ok a ∧
      c.residuals = .ok [Residual.pointOnLine p.x p.y a.x a.y l.ang] := by
  obtain ⟨s, t, g, keeps, fits, scope⟩ := h.exists_scope rfl
  obtain ⟨p, l, a, b, hp, hl, ha, hb⟩ := g.exists_pointAndSegment fits
  exact ⟨p, l, a, keeps.asA hp, keeps.asA hl, keeps.asA ha,
    residuals_of_held (scope _ (Gather.adds_pointOnLine hp hl ha)) rfl⟩

theorem On.residuals_pointInMiddle (h : c.On .pointInMiddle [pt, seg] u) :
    ∃ p l a b, u.point pt = .ok p ∧ u.segment seg = .ok l ∧ u.point l.a = .ok a ∧
      u.point l.b = .ok b ∧
      c.residuals = .ok [Residual.pointInMiddle a.x a.y p.x p.y b.x b.y] := by
  obtain ⟨s, t, g, keeps, fits, scope⟩ := h.exists_scope rfl
  obtain ⟨p, l, a, b, hp, hl, ha, hb⟩ := g.exists_pointAndSegment fits
  exact ⟨p, l, a, b, keeps.asA hp, keeps.asA hl, keeps.asA ha, keeps.asA hb,
    residuals_of_held (scope _ (Gather.adds_pointInMiddle hp hl ha hb)) rfl⟩

theorem On.residuals_symmetry (h : c.On .symmetry [pt, seg] u) :
    ∃ p l a b, u.point pt = .ok p ∧ u.segment seg = .ok l ∧ u.point l.a = .ok a ∧
      u.point l.b = .ok b ∧
      c.residuals = .ok (Residual.symmetry a.x a.y p.x p.y b.x b.y l.ang) := by
  obtain ⟨s, t, g, keeps, fits, scope⟩ := h.exists_scope rfl
  obtain ⟨p, l, a, b, hp, hl, ha, hb⟩ := g.exists_pointAndSegment fits
  exact ⟨p, l, a, b, keeps.asA hp, keeps.asA hl, keeps.asA ha, keeps.asA hb,
    residuals_of_held (scope _ (Gather.adds_symmetry hp hl ha hb)) rfl⟩

theorem On.residuals_tangentLC (h : c.On .tangentLC [seg, rd] u) :
    ∃ l a r m, u.segment seg = .ok l ∧ u.point l.a = .ok a ∧ u.round rd = .ok r ∧
      u.point r.c = .ok m ∧
      c.residuals = .ok [Residual.tangent l.ang a.x a.y m.x m.y r.r
        (c.resolved.flag "inverted")] := by
  obtain ⟨s, t, g, keeps, fits, scope⟩ := h.exists_scope rfl
  obtain ⟨isSegment, isRound⟩ := fits_pair.mp fits
  obtain ⟨l, a, b, hl, ha, hb⟩ := g.exists_segment isSegment
  obtain ⟨r, m, hr, hm⟩ := g.exists_round isRound
  exact ⟨l, a, r, m, keeps.asA hl, keeps.asA ha, keeps.asA hr, keeps.asA hm,
    residuals_of_held (scope _ (Gather.adds_tangentLC hl ha hr hm)) rfl⟩

/-- Two residuals of a line and an arc, with the arc in common. -/
theorem On.residuals_fillet (h : c.On .fillet [l₁, l₂, arc] u) :
    ∃ k₁ a₁ k₂ a₂ x m, u.segment l₁ = .ok k₁ ∧ u.point k₁.a = .ok a₁ ∧ u.segment l₂ = .ok k₂ ∧
      u.point k₂.a = .ok a₂ ∧ u.arc arc = .ok x ∧ u.point x.c = .ok m ∧
      c.residuals = .ok [
        Residual.tangent k₁.ang a₁.x a₁.y m.x m.y x.r (c.resolved.flag "inverted1"),
        Residual.tangent k₂.ang a₂.x a₂.y m.x m.y x.r (c.resolved.flag "inverted2")] := by
  obtain ⟨s, t, g, keeps, fits, scope⟩ := h.exists_scope rfl
  obtain ⟨_, _, _, same, isFirst, isSecond, isArc⟩ := fits_three.mp fits
  cases same
  obtain ⟨k₁, a₁, -, h₁, ha₁, -⟩ := g.exists_segment isFirst
  obtain ⟨k₂, a₂, -, h₂, ha₂, -⟩ := g.exists_segment isSecond
  obtain ⟨x, hx⟩ := exists_arc.mpr isArc
  obtain ⟨m, hm⟩ := exists_point.mpr (g.arc hx).2.2
  exact ⟨k₁, a₁, k₂, a₂, x, m, keeps.asA h₁, keeps.asA ha₁, keeps.asA h₂, keeps.asA ha₂,
    keeps.asA hx, keeps.asA hm,
    residuals_of_held (scope _ (Gather.adds_fillet h₁ ha₁ h₂ ha₂ hx hm)) rfl⟩

theorem On.residuals_segmentConsistency (h : c.On .segmentConsistency [seg] u) :
    ∃ l a b, u.segment seg = .ok l ∧ u.point l.a = .ok a ∧ u.point l.b = .ok b ∧
      c.residuals = .ok (Residual.polar l.ang l.t a.x a.y b.x b.y) := by
  obtain ⟨s, t, g, keeps, fits, scope⟩ := h.exists_scope rfl
  obtain ⟨_, same, isSegment⟩ := fits_one.mp fits
  cases same
  obtain ⟨l, a, b, hl, ha, hb⟩ := g.exists_segment isSegment
  exact ⟨l, a, b, keeps.asA hl, keeps.asA ha, keeps.asA hb,
    residuals_of_held (scope _ (Gather.adds_segmentConsistency hl ha hb)) rfl⟩

theorem On.residuals_polar (h : c.On .polar [seg, start, finish] u) :
    ∃ l p q, u.segment seg = .ok l ∧ u.point start = .ok p ∧ u.point finish = .ok q ∧
      c.residuals = .ok (Residual.polar l.ang l.t p.x p.y q.x q.y) := by
  obtain ⟨s, t, g, keeps, fits, scope⟩ := h.exists_scope rfl
  obtain ⟨_, _, _, same, isSegment, isStart, isFinish⟩ := fits_three.mp fits
  cases same
  obtain ⟨l, hl⟩ := Sketch.exists_segment.mpr isSegment
  obtain ⟨p, hp⟩ := exists_point.mpr isStart
  obtain ⟨q, hq⟩ := exists_point.mpr isFinish
  exact ⟨l, p, q, keeps.asA hl, keeps.asA hp, keeps.asA hq,
    residuals_of_held (scope _ (Gather.adds_polar hl hp hq)) rfl⟩

/-- The kinds that hold a segment to an angle. -/
theorem On.residuals_direction (hk : k = .angle ∨ k = .vertical ∨ k = .horizontal)
    (h : c.On k [seg] u) : ∃ l, u.segment seg = .ok l ∧
      c.residuals = .ok [Residual.offset l.ang (c.resolved.number "angle")] := by
  obtain rfl | rfl | rfl := hk
  all_goals
    obtain ⟨s, t, g, keeps, fits, scope⟩ := h.exists_scope rfl
    obtain ⟨_, same, isSegment⟩ := fits_one.mp fits
    cases same
    obtain ⟨l, hl⟩ := Sketch.exists_segment.mpr isSegment
    exact ⟨l, keeps.asA hl,
      residuals_of_held (scope _ (Gather.adds_ofSegment Segment.ang hl)) rfl⟩

/-- The kinds that hold two segments to an angle between them. -/
theorem On.residuals_turn (hk : k = .angleBetween ∨ k = .perpendicular ∨ k = .parallel)
    (h : c.On k [seg₁, seg₂] u) : ∃ l l', u.segment seg₁ = .ok l ∧ u.segment seg₂ = .ok l' ∧
      c.residuals = .ok [Residual.angleBetween l.ang l'.ang (c.resolved.number "angle")] := by
  obtain rfl | rfl | rfl := hk
  all_goals
    obtain ⟨s, t, g, keeps, fits, scope⟩ := h.exists_scope rfl
    obtain ⟨isFirst, isSecond⟩ := fits_pair.mp fits
    obtain ⟨l, hl⟩ := Sketch.exists_segment.mpr isFirst
    obtain ⟨l', hl'⟩ := Sketch.exists_segment.mpr isSecond
    exact ⟨l, l', keeps.asA hl, keeps.asA hl',
      residuals_of_held (scope _ (Gather.adds_twoAngles hl hl')) rfl⟩

/-- The last residual of a line that touches a curve is that of a point on the line; the touching
point is a parameter of the constraint. -/
theorem On.residuals_tangentLineBezier (h : c.On .tangentLineBezier [seg, curve] u) :
    ∃ t px py nx ny l a rs, c.auxiliary = [t, px, py, nx, ny] ∧ u.segment seg = .ok l ∧
      u.point l.a = .ok a ∧
      c.residuals = .ok (rs ++ [Residual.pointOnLine px py a.x a.y l.ang]) := by
  obtain ⟨s, v, g, keeps, fits, scope⟩ := h.exists_scope rfl
  obtain ⟨isSegment, isCurve⟩ := fits_pair.mp fits
  obtain ⟨l, a, b, hl, ha, hb⟩ := g.exists_segment isSegment
  obtain ⟨x, q₀, q₁, q₂, q₃, curve⟩ := g.exists_controls isCurve
  obtain ⟨kind, realized⟩ := scope _ (Gather.adds_tangentLineBezier hl ha curve rfl rfl)
  obtain ⟨params, found⟩ :=
    Realized.between [_, _, _, _, _, _, _, _] [_, _, _, _, _] [_, _, _] realized
  generalize auxiliary : c.auxiliary = news at params found
  obtain _ | ⟨-, _ | ⟨-, _ | ⟨-, _ | ⟨-, _ | ⟨-, _ | _⟩⟩⟩⟩⟩ := found
  exact ⟨_, _, _, _, _, l, a, [_, _, _, _, _], rfl, keeps.asA hl, keeps.asA ha,
    residuals_eq ⟨kind, params⟩ rfl⟩

end Constraint

end Drafting
