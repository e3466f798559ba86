import Mathlib.Algebra.Polynomial.Derivative
import Drafting.Proofs.Lines

open Polynomial (C X)
open scoped Polynomial

namespace Drafting

section Ring

variable {R : Type} [CommRing R]

noncomputable def bernstein (p0 p1 p2 p3 : R) : R[X] :=
  (1 - X) ^ 3 * C p0 + 3 * (1 - X) ^ 2 * X * C p1 + 3 * (1 - X) * X ^ 2 * C p2 + X ^ 3 * C p3

section Values

variable (p0 p1 p2 p3 t : R)

theorem eval_bernstein : (bernstein p0 p1 p2 p3).eval t =
    (1 - t) ^ 3 * p0 + 3 * (1 - t) ^ 2 * t * p1 + 3 * (1 - t) * t ^ 2 * p2 + t ^ 3 * p3 := by
  simp [bernstein]
  ring

theorem eval_derivative_bernstein : (bernstein p0 p1 p2 p3).derivative.eval t =
    3 * (1 - t) ^ 2 * (p1 - p0) + 6 * (1 - t) * t * (p2 - p1) + 3 * t ^ 2 * (p3 - p2) := by
  simp [bernstein, Polynomial.derivative_pow]
  ring

theorem eval_second_bernstein : (bernstein p0 p1 p2 p3).derivative.derivative.eval t =
    6 * (1 - t) * (p2 - 2 * p1 + p0) + 6 * t * (p3 - 2 * p2 + p1) := by
  simp [bernstein, Polynomial.derivative_pow]
  ring

end Values

namespace Residual

variable (sine cosine : R → R) (value : Handle → R) (p t p0 p1 p2 p3 : Handle)

/-- Expanded in powers of the place, the residual is the Bernstein cubic less a value. No division
is needed, so that this holds in every commutative ring. -/
theorem evaluateWith_bezier :
    (bezier p t p0 p1 p2 p3).evaluateWith (TermFn.ofTrig sine cosine) value + value p =
      (bernstein (value p0) (value p1) (value p2) (value p3)).eval (value t) := by
  rw [eval_bernstein]
  simp [bezier]
  ring

theorem evaluateWith_bezierFirst :
    (bezierFirst p t p0 p1 p2 p3).evaluateWith (TermFn.ofTrig sine cosine) value + value p =
      (bernstein (value p0) (value p1) (value p2) (value p3)).derivative.eval (value t) := by
  rw [eval_derivative_bernstein]
  simp [bezierFirst]
  ring

theorem evaluateWith_bezierSecond :
    (bezierSecond p t p0 p1 p2 p3).evaluateWith (TermFn.ofTrig sine cosine) value + value p =
      (bernstein (value p0) (value p1) (value p2) (value p3)).derivative.derivative.eval
        (value t) := by
  rw [eval_second_bernstein]
  simp [bezierSecond]
  ring

end Residual

end Ring

structure Path where
  x : ℝ[X]
  y : ℝ[X]

namespace Path

noncomputable def spot (b : Path) (t : ℝ) : Vec ℝ := ⟨b.x.eval t, b.y.eval t⟩

noncomputable def tangent (b : Path) : Path := ⟨b.x.derivative, b.y.derivative⟩

noncomputable def cubic (p0 p1 p2 p3 : Vec ℝ) : Path :=
  ⟨bernstein p0.x p1.x p2.x p3.x, bernstein p0.y p1.y p2.y p3.y⟩

variable (p0 p1 p2 p3 : Vec ℝ) (t : ℝ)

theorem spot_cubic_zero : (cubic p0 p1 p2 p3).spot 0 = p0 := by
  ext
  · simp [spot, cubic, eval_bernstein]
  · simp [spot, cubic, eval_bernstein]

theorem spot_cubic_one : (cubic p0 p1 p2 p3).spot 1 = p3 := by
  ext
  · simp [spot, cubic, eval_bernstein]
  · simp [spot, cubic, eval_bernstein]

/-- A touching point starts on the curve. -/
theorem curvePoint_eq : Kind.curvePoint p0 p1 p2 p3 t = (cubic p0 p1 p2 p3).spot t := by
  ext
  · simp [Kind.curvePoint, Vec.add, Vec.scale, spot, cubic, eval_bernstein]
    ring
  · simp [Kind.curvePoint, Vec.add, Vec.scale, spot, cubic, eval_bernstein]
    ring

theorem curveTangent_eq : Kind.curveTangent p0 p1 p2 p3 t = (cubic p0 p1 p2 p3).tangent.spot t := by
  ext
  · simp [Kind.curveTangent, Vec.add, Vec.sub, Vec.scale, spot, tangent, cubic,
      eval_derivative_bernstein]
    ring
  · simp [Kind.curveTangent, Vec.add, Vec.sub, Vec.scale, spot, tangent, cubic,
      eval_derivative_bernstein]
    ring

end Path

namespace Sketch

noncomputable def path (s : Sketch ℝ) (id : ObjectId) : Except SketchError Path := do
  let b ← s.bezier id
  let p0 ← s.position b.p0
  let p1 ← s.position b.p1
  let p2 ← s.position b.p2
  let p3 ← s.position b.p3
  pure (.cubic p0 p1 p2 p3)

section Controls

variable {s : Sketch ℝ} {id : ObjectId} {x : Bezier} {p q m n : Point}

theorem Controls.path (b : s.Controls id x p q m n) :
    s.path id = .ok (.cubic (s.spot p) (s.spot q) (s.spot m) (s.spot n)) :=
  bind_eq_ok.mpr ⟨x, b.curve, bind_eq_ok.mpr ⟨_, position_of_point b.first,
    bind_eq_ok.mpr ⟨_, position_of_point b.second, bind_eq_ok.mpr ⟨_, position_of_point b.third,
      bind_eq_ok.mpr ⟨_, position_of_point b.last, rfl⟩⟩⟩⟩⟩

/-- A curve goes from its first control point to its last. -/
theorem Controls.ends (b : s.Controls id x p q m n) :
    s.position x.p0 = .ok ((Path.cubic (s.spot p) (s.spot q) (s.spot m) (s.spot n)).spot 0) ∧
      s.position x.p3 = .ok ((Path.cubic (s.spot p) (s.spot q) (s.spot m) (s.spot n)).spot 1) := by
  rw [Path.spot_cubic_zero, Path.spot_cubic_one]
  exact ⟨position_of_point b.first, position_of_point b.last⟩

end Controls

end Sketch

namespace Exact

variable (value : Handle → ℝ)

theorem evaluate_coincident (x1 y1 x2 y2 : Handle) :
    (Residual.coincident x1 y1 x2 y2).map (·.evaluate value) =
      [value x1 - value x2, value y1 - value y2] := by
  simp [Residual.coincident, Residual.difference, evaluate_eq, sub_eq_add_neg]

theorem evaluate_bezier (p t p0 p1 p2 p3 : Handle) :
    (Residual.bezier p t p0 p1 p2 p3).evaluate value =
      (bernstein (value p0) (value p1) (value p2) (value p3)).eval (value t) - value p :=
  eq_sub_of_add_eq (Residual.evaluateWith_bezier Real.sin Real.cos value p t p0 p1 p2 p3)

theorem evaluate_bezierFirst (p t p0 p1 p2 p3 : Handle) :
    (Residual.bezierFirst p t p0 p1 p2 p3).evaluate value =
      (bernstein (value p0) (value p1) (value p2) (value p3)).derivative.eval (value t) -
        value p :=
  eq_sub_of_add_eq (Residual.evaluateWith_bezierFirst Real.sin Real.cos value p t p0 p1 p2 p3)

/-- How far a tangent is across a direction. -/
theorem evaluate_across (nx ny ang : Handle) :
    (Residual.sum [Residual.weighted (-1) [Residual.var ny, Residual.cos ang],
        Residual.weighted 1 [Residual.var nx, Residual.sin ang]]).evaluate value =
      -(Real.cos (value ang) * value ny - Real.sin (value ang) * value nx) := by
  rw [evaluate_eq, Residual.evaluateWith_sum]
  simp
  ring

theorem evaluate_pointOnBezier (p0x p0y p3x p3y p1x p1y p2x p2y t px py : Handle) :
    (Residual.pointOnBezier p0x p0y p3x p3y p1x p1y p2x p2y t px py).map (·.evaluate value) =
      [(bernstein (value p0x) (value p1x) (value p2x) (value p3x)).eval (value t) - value px,
        (bernstein (value p0y) (value p1y) (value p2y) (value p3y)).eval (value t) - value py] := by
  simp only [Residual.pointOnBezier, List.map_cons, List.map_nil, evaluate_bezier]

theorem evaluate_tangentLineBezier
    (p0x p0y p3x p3y p1x p1y p2x p2y t px py nx ny ang ax ay : Handle) :
    (Residual.tangentLineBezier p0x p0y p3x p3y p1x p1y p2x p2y t px py nx ny ang ax ay).map
        (·.evaluate value) =
      [(bernstein (value p0x) (value p1x) (value p2x) (value p3x)).eval (value t) - value px,
        (bernstein (value p0y) (value p1y) (value p2y) (value p3y)).eval (value t) - value py,
        (bernstein (value p0x) (value p1x) (value p2x) (value p3x)).derivative.eval (value t) -
          value nx,
        (bernstein (value p0y) (value p1y) (value p2y) (value p3y)).derivative.eval (value t) -
          value ny,
        -(Real.cos (value ang) * value ny - Real.sin (value ang) * value nx),
        (Line.through (value ang) ⟨value ax, value ay⟩).signedDistance ⟨value px, value py⟩] := by
  simp only [Residual.tangentLineBezier, List.map_cons, List.map_nil, evaluate_bezier,
    evaluate_bezierFirst, evaluate_across, evaluate_pointOnLine]

end Exact

/-- How far a point and a tangent are from those of a path, and how far they are from a line: the
tangent across it and the point off it. -/
noncomputable def Path.gaps (b : Path) (t ang : ℝ) (a p n : Vec ℝ) : List ℝ :=
  [(b.spot t).x - p.x, (b.spot t).y - p.y, (b.tangent.spot t).x - n.x, (b.tangent.spot t).y - n.y,
    -(Real.cos ang * n.y - Real.sin ang * n.x), (Line.through ang a).signedDistance p]

/-- A line touches a path if it has the direction of the tangent and goes through the point. -/
theorem Path.gaps_eq_zero_iff {b : Path} {t ang : ℝ} {a p n : Vec ℝ} :
    b.gaps t ang a p n = List.replicate 6 0 ↔ p = b.spot t ∧ n = b.tangent.spot t ∧
      (∃ k, b.tangent.spot t = (Vec.unit ang).scale k) ∧
      ∃ k, b.spot t = a.add ((Vec.unit ang).scale k) := by
  have split : b.gaps t ang a p n = List.replicate 6 0 ↔ b.spot t = p ∧ b.tangent.spot t = n ∧
      Real.cos ang * n.y - Real.sin ang * n.x = 0 ∧
      (Line.through ang a).signedDistance p = 0 := by
    simp only [gaps, List.replicate, List.cons.injEq, and_true, sub_eq_zero, neg_eq_zero,
      Vec.ext_iff, and_assoc]
  rw [split, Exact.exists_along_iff, Exact.signedDistance_eq_zero_iff]
  constructor
  · rintro ⟨rfl, rfl, along, incident⟩
    exact ⟨rfl, rfl, along, incident⟩
  · rintro ⟨rfl, rfl, along, incident⟩
    exact ⟨rfl, rfl, along, incident⟩

namespace Constraint

open Sketch

section Made

variable {c : Constraint ℝ} {s t : Sketch ℝ} {k : Kind} {objects : List ObjectId}
  {pt curve id : ObjectId} {p q m n : Point} {x : Bezier}

theorem Makes.path (made : Makes k objects s c t) (live : s.Live) (b : s.Controls id x p q m n) :
    t.path id = s.path id := by
  rw [(made.keeps.controls b).path, b.path, made.spot live b.first, made.spot live b.second,
    made.spot live b.third, made.spot live b.last]

/-- A place on a curve starts where it was chosen to. -/
theorem Makes.pointOnBezier (made : Makes .pointOnBezier [pt, curve] s c t) (g : s.Grounded) :
    ∃ h, c.auxiliary = [h] ∧ t.value h = c.options.curve.initial := by
  obtain ⟨isPoint, isCurve⟩ := fits_pair.mp (made.fits g rfl)
  obtain ⟨p, hp⟩ := exists_point.mpr isPoint
  obtain ⟨x, q₀, q₁, q₂, q₃, hb⟩ := g.exists_controls isCurve
  obtain ⟨-, realized⟩ := made.realized rfl
    (Gather.adds_pointOnBezier (s := s.numbered) hp (s.keeps_numbered.controls hb))
  obtain ⟨-, found⟩ := Realized.between [_, _, _, _, _, _, _, _] [_] [_, _] realized
  generalize auxiliary : c.auxiliary = news at found
  obtain _ | ⟨ht, _ | _⟩ := found
  exact ⟨_, rfl, value_of_param? ht⟩

end Made

section Evaluated

variable [Written ℝ] {c e : Constraint ℝ} {s u : Sketch ℝ} {pt seg curve p₁ p₂ : ObjectId}

theorem On.pCoincident (h : c.On .pCoincident [p₁, p₂] u) :
    ∃ v w, u.position p₁ = .ok v ∧ u.position p₂ = .ok w ∧
      c.residualValues u = .ok [v.x - w.x, v.y - w.y] := by
  obtain ⟨s, t, g, keeps, fits, scope⟩ := h.exists_scope rfl
  obtain ⟨isFirst, isSecond⟩ := fits_pair.mp fits
  obtain ⟨p, hp⟩ := exists_point.mpr isFirst
  obtain ⟨q, hq⟩ := exists_point.mpr isSecond
  have values : c.residualValues u = .ok ((Residual.coincident _ _ _ _).map (·.evaluate u.value)) :=
    residualValues_of_held (scope _ (Gather.adds_twoPoints hp hq)) rfl
  rw [Exact.evaluate_coincident] at values
  exact ⟨_, _, position_of_point (keeps.asA hp), position_of_point (keeps.asA hq), values⟩

/-- How far a point is from its place on the curve, which has its ends at zero and one. -/
theorem On.pointOnBezier (h : c.On .pointOnBezier [pt, curve] u) :
    ∃ t x b p, c.auxiliary = [t] ∧ u.bezier curve = .ok x ∧ u.path curve = .ok b ∧
      u.position x.p0 = .ok (b.spot 0) ∧ u.position x.p3 = .ok (b.spot 1) ∧ u.position pt = .ok p ∧
      c.residualValues u = .ok [(b.spot (u.value t)).x - p.x, (b.spot (u.value t)).y - p.y] := by
  obtain ⟨s, v, g, keeps, fits, scope⟩ := h.exists_scope rfl
  obtain ⟨isPoint, isCurve⟩ := fits_pair.mp fits
  obtain ⟨p, hp⟩ := exists_point.mpr isPoint
  obtain ⟨x, q₀, q₁, q₂, q₃, hb⟩ := g.exists_controls isCurve
  obtain ⟨kind, realized⟩ := scope _ (Gather.adds_pointOnBezier hp hb)
  obtain ⟨params, found⟩ := Realized.between [_, _, _, _, _, _, _, _] [_] [_, _] realized
  generalize auxiliary : c.auxiliary = news at params found
  obtain _ | ⟨ht, _ | _⟩ := found
  have values : c.residualValues u = .ok ((Residual.pointOnBezier _ _ _ _ _ _ _ _ _ _ _).map
      (·.evaluate u.value)) := residualValues_eq ⟨kind, params⟩ rfl
  rw [Exact.evaluate_pointOnBezier] at values
  have controls := keeps.controls hb
  exact ⟨_, x, _, _, rfl, controls.curve, controls.path, controls.ends.1, controls.ends.2,
    position_of_point (keeps.asA hp), values⟩

/-- Over the scope of a line that touches a curve, with any new parameters. -/
theorem residualValues_touching {v : Sketch ℝ} {q₀ q₁ q₂ q₃ a : Point} {ang : Handle}
    {f₁ f₂ f₃ f₄ f₅ : Param ℝ} (scope : c.kind = .tangentLineBezier ∧
      Realized v ([q₀.x, q₀.y, q₃.x, q₃.y, q₁.x, q₁.y, q₂.x, q₂.y].map .held ++ .fresh f₁ ::
        .fresh f₂ :: .fresh f₃ :: .fresh f₄ :: .fresh f₅ :: [ang, a.x, a.y].map .held)
        c.params c.auxiliary) :
    ∃ t px py nx ny, c.auxiliary = [t, px, py, nx, ny] ∧
      List.Forall₂ (fun h f => v.param? h = some f) [t, px, py, nx, ny] [f₁, f₂, f₃, f₄, f₅] ∧
      ∀ u : Sketch ℝ, c.residualValues u =
        .ok ((Path.cubic (u.spot q₀) (u.spot q₁) (u.spot q₂) (u.spot q₃)).gaps (u.value t)
          (u.value ang) (u.spot a) ⟨u.value px, u.value py⟩ ⟨u.value nx, u.value ny⟩) := by
  obtain ⟨kind, realized⟩ := scope
  obtain ⟨params, found⟩ :=
    Realized.between [_, _, _, _, _, _, _, _] [_, _, _, _, _] [_, _, _] realized
  -- the new handles are as many as the parameters, which only a variable in their place can show
  generalize auxiliary : c.auxiliary = news at params found
  obtain _ | ⟨ht, _ | ⟨hpx, _ | ⟨hpy, _ | ⟨hnx, _ | ⟨hny, _ | _⟩⟩⟩⟩⟩ := found
  refine ⟨_, _, _, _, _, rfl, .cons ht (.cons hpx (.cons hpy (.cons hnx (.cons hny .nil)))),
    fun u => ?_⟩
  have values : c.residualValues u =
      .ok ((Residual.tangentLineBezier _ _ _ _ _ _ _ _ _ _ _ _ _ _ _ _).map
        (·.evaluate u.value)) := residualValues_eq ⟨kind, params⟩ rfl
  rw [Exact.evaluate_tangentLineBezier] at values
  exact values

/-- How far the new parameters are from a place of the curve and its tangent, and the line from
both. -/
theorem On.tangentLineBezier (h : c.On .tangentLineBezier [seg, curve] u) :
    ∃ t px py nx ny b l a, c.auxiliary = [t, px, py, nx, ny] ∧ u.path curve = .ok b ∧
      u.segment seg = .ok l ∧ u.position l.a = .ok a ∧
      c.residualValues u = .ok (b.gaps (u.value t) (u.value l.ang) a ⟨u.value px, u.value py⟩
        ⟨u.value nx, u.value ny⟩) := by
  obtain ⟨s, v, g, keeps, fits, scope⟩ := h.exists_scope rfl
  obtain ⟨isSegment, isCurve⟩ := fits_pair.mp fits
  obtain ⟨l, p, q, hl, hp, hq⟩ := g.exists_segment isSegment
  obtain ⟨x, q₀, q₁, q₂, q₃, hb⟩ := g.exists_controls isCurve
  obtain ⟨t, px, py, nx, ny, auxiliary, -, values⟩ :=
    residualValues_touching (scope _ (Gather.adds_tangentLineBezier hl hp hb rfl rfl))
  exact ⟨t, px, py, nx, ny, _, l, _, auxiliary, (keeps.controls hb).path, keeps.asA hl,
    position_of_point (keeps.asA hp), values u⟩

/-- The touching point and the tangent start where the curve has them, wherever its parameter was
chosen to start. -/
theorem Makes.tangentLineBezier {t : Sketch ℝ} (m : Makes .tangentLineBezier [seg, curve] s c t)
    (g : s.Grounded) (live : s.Live) :
    ∃ h hs x y, c.auxiliary = h :: hs ∧ t.value h = c.options.curve.initial ∧
      c.residualValues t = .ok [0, 0, 0, 0, x, y] := by
  obtain ⟨isSegment, isCurve⟩ := fits_pair.mp (m.fits g rfl)
  obtain ⟨l, p, q, hl, hp, hq⟩ := g.exists_segment isSegment
  obtain ⟨x, q₀, q₁, q₂, q₃, hb⟩ := g.exists_controls isCurve
  have scope := m.realized rfl (Gather.adds_tangentLineBezier (s := s.numbered) hl hp
    (s.keeps_numbered.controls hb) (Path.curvePoint_eq ..) (Path.curveTangent_eq ..))
  obtain ⟨h, px, py, nx, ny, auxiliary, found, values⟩ := residualValues_touching scope
  obtain _ | ⟨ht, _ | ⟨hpx, _ | ⟨hpy, _ | ⟨hnx, _ | ⟨hny, _ | _⟩⟩⟩⟩⟩ := found
  have start : t.value h = c.options.curve.initial := value_of_param? ht
  have same : s.numbered.spot = s.spot := rfl
  have shown := values t
  rw [m.spot live hb.first, m.spot live hb.second, m.spot live hb.third, m.spot live hb.last, start,
    value_of_param? hpx, value_of_param? hpy, value_of_param? hnx, value_of_param? hny] at shown
  simp only [Path.gaps, same, sub_self] at shown
  exact ⟨h, _, _, _, auxiliary, start, shown⟩

variable (c) in
/-- Residuals follow a curve: in every commutative ring they are the Bernstein cubic and its
derivatives less a value. In a sketch those of a point are how far the point is from its place on
the curve, as far as from an end if the place is there; those of a line are zero exactly where the
line touches the curve, and the four of them that are about the curve are zero wherever it was
chosen to start. -/
theorem residuals_follow_path :
    (∀ (R : Type) [CommRing R] (sine cosine : R → R) (value : Handle → R)
        (p t p0 p1 p2 p3 : Handle) (b : R[X]),
      b = bernstein (value p0) (value p1) (value p2) (value p3) →
      (Residual.bezier p t p0 p1 p2 p3).evaluateWith (TermFn.ofTrig sine cosine) value + value p =
        b.eval (value t) ∧
      (Residual.bezierFirst p t p0 p1 p2 p3).evaluateWith (TermFn.ofTrig sine cosine) value +
        value p = b.derivative.eval (value t) ∧
      (Residual.bezierSecond p t p0 p1 p2 p3).evaluateWith (TermFn.ofTrig sine cosine) value +
        value p = b.derivative.derivative.eval (value t)) ∧
    (∀ u pt curve, c.On .pointOnBezier [pt, curve] u →
      ∃ t x b p, c.auxiliary = [t] ∧ u.bezier curve = .ok x ∧ u.path curve = .ok b ∧
        u.position pt = .ok p ∧
        c.residualValues u =
          .ok [(b.spot (u.value t)).x - p.x, (b.spot (u.value t)).y - p.y] ∧
        (∀ e, On e .pCoincident [x.p0, pt] u → u.value t = 0 →
          c.residualValues u = e.residualValues u) ∧
        ∀ e, On e .pCoincident [x.p3, pt] u → u.value t = 1 →
          c.residualValues u = e.residualValues u) ∧
    (∀ u seg curve, c.On .tangentLineBezier [seg, curve] u →
      ∃ t px py nx ny b l a, c.auxiliary = [t, px, py, nx, ny] ∧ u.path curve = .ok b ∧
        u.segment seg = .ok l ∧ u.position l.a = .ok a ∧
        (c.residualValues u = .ok (List.replicate 6 0) ↔
          ⟨u.value px, u.value py⟩ = b.spot (u.value t) ∧
          ⟨u.value nx, u.value ny⟩ = b.tangent.spot (u.value t) ∧
          (∃ k, b.tangent.spot (u.value t) = (Vec.unit (u.value l.ang)).scale k) ∧
          ∃ k, b.spot (u.value t) = a.add ((Vec.unit (u.value l.ang)).scale k))) ∧
    ∀ s v seg curve, Sketch.Grounded s → s.Live → Makes .tangentLineBezier [seg, curve] s c v →
      ∃ t rest x y, c.auxiliary = t :: rest ∧ v.value t = c.options.curve.initial ∧
        c.residualValues v = .ok [0, 0, 0, 0, x, y] := by
  refine ⟨?_, ?_, ?_, fun s v seg curve g live m => m.tangentLineBezier g live⟩
  · rintro R _ sine cosine value p t p0 p1 p2 p3 b rfl
    exact ⟨Residual.evaluateWith_bezier sine cosine value p t p0 p1 p2 p3,
      Residual.evaluateWith_bezierFirst sine cosine value p t p0 p1 p2 p3,
      Residual.evaluateWith_bezierSecond sine cosine value p t p0 p1 p2 p3⟩
  · intro u pt curve h
    obtain ⟨t, x, b, p, auxiliary, hx, hb, first, last, hp, values⟩ := h.pointOnBezier
    refine ⟨t, x, b, p, auxiliary, hx, hb, hp, values, fun e he place => ?_, fun e he place => ?_⟩
    · obtain ⟨v, w, hv, hw, apart⟩ := he.pCoincident
      cases first.symm.trans hv
      cases hp.symm.trans hw
      rw [values, apart, place]
    · obtain ⟨v, w, hv, hw, apart⟩ := he.pCoincident
      cases last.symm.trans hv
      cases hp.symm.trans hw
      rw [values, apart, place]
  · intro u seg curve h
    obtain ⟨t, px, py, nx, ny, b, l, a, auxiliary, hb, hl, ha, values⟩ := h.tangentLineBezier
    refine ⟨t, px, py, nx, ny, b, l, a, auxiliary, hb, hl, ha, ?_⟩
    rw [values, Except.ok.injEq, Path.gaps_eq_zero_iff]

end Evaluated

noncomputable def drawnWave : Sketch ℝ :=
  let dot := ((addPoint ⟨0, 1⟩).run .empty).2
  let beam := ((addSegment ⟨-1, 0⟩ ⟨1, 0⟩).run dot).2
  ((addBezier ⟨-1, 1⟩ ⟨-1, -1⟩ ⟨1, 1⟩ ⟨1, -1⟩).run beam).2

/-- The segment has the direction of its ends. -/
noncomputable def wave : Sketch ℝ := drawnWave.setValue ⟨7, 1⟩ 0

theorem grounded_wave : wave.Grounded := by
  have dot := (drawn_addPoint (⟨0, 1⟩ : Vec ℝ) .empty).1.ordered .empty
  have beam := (drawn_addSegment (⟨-1, 0⟩ : Vec ℝ) ⟨1, 0⟩ dot).ordered dot
  exact ((drawn_addBezier ⟨-1, 1⟩ ⟨-1, -1⟩ ⟨1, 1⟩ ⟨1, -1⟩ beam).ordered beam).grounded

theorem live_wave : wave.Live := by
  show ∀ h ∈ wave.fields, (wave.param? h).isSome
  decide

theorem controls_wave : wave.Controls ⟨9⟩ ⟨⟨5⟩, ⟨6⟩, ⟨7⟩, ⟨8⟩⟩ ⟨⟨9, 1⟩, ⟨10, 1⟩⟩ ⟨⟨11, 1⟩, ⟨12, 1⟩⟩
    ⟨⟨13, 1⟩, ⟨14, 1⟩⟩ ⟨⟨15, 1⟩, ⟨16, 1⟩⟩ := ⟨rfl, rfl, rfl, rfl, rfl⟩

/-- The point is put on the curve at any place. -/
theorem exists_placed_wave (place : ℝ) : ∃ (c : Constraint ℝ) (u : Sketch ℝ) (h : Handle),
    c.On .pointOnBezier [⟨1⟩, ⟨9⟩] u ∧ wave.Keeps u ∧ c.auxiliary = [h] ∧ u.value h = place := by
  obtain ⟨c, u, made, -, -, options⟩ := exists_makes .pointOnBezier [⟨1⟩, ⟨9⟩] .empty
    ⟨2, place, 0, 1⟩ grounded_wave rfl (.cons ⟨_, rfl, rfl⟩ (.cons ⟨_, rfl, rfl⟩ .nil))
  obtain ⟨h, auxiliary, start⟩ := made.pointOnBezier grounded_wave
  refine ⟨c, u, h, made.on grounded_wave made.keeps, made.keeps, auxiliary, ?_⟩
  rw [start, options]

/-- At an end of the curve the point is as far from its place as from that end, and the line touches
the curve half way. -/
theorem residuals_follow_path_wave :
    (∃ (c e : Constraint ℝ) (u : Sketch ℝ), c.On .pointOnBezier [⟨1⟩, ⟨9⟩] u ∧
      e.On .pCoincident [⟨5⟩, ⟨1⟩] u ∧ ∀ [Written ℝ], c.residualValues u = e.residualValues u) ∧
    (∃ (c e : Constraint ℝ) (u : Sketch ℝ), c.On .pointOnBezier [⟨1⟩, ⟨9⟩] u ∧
      e.On .pCoincident [⟨8⟩, ⟨1⟩] u ∧ ∀ [Written ℝ], c.residualValues u = e.residualValues u) ∧
    ∃ (c : Constraint ℝ) (u : Sketch ℝ), Makes .tangentLineBezier [⟨4⟩, ⟨9⟩] wave c u ∧
      c.On .tangentLineBezier [⟨4⟩, ⟨9⟩] u ∧
      ∀ [Written ℝ], c.residualValues u = .ok (List.replicate 6 0) := by
  refine ⟨?_, ?_, ?_⟩
  · obtain ⟨c, u, h, on, keeps, auxiliary, start⟩ := exists_placed_wave 0
    obtain ⟨e, on', -⟩ := exists_on .pCoincident [⟨5⟩, ⟨1⟩] .empty grounded_wave rfl
      (.cons ⟨_, rfl, rfl⟩ (.cons ⟨_, rfl, rfl⟩ .nil)) keeps
    refine ⟨c, e, u, on, on', fun {_} => ?_⟩
    obtain ⟨t, x, b, p, same, hx, -, -, -, first, -⟩ := (residuals_follow_path c).2.1 _ _ _ on
    cases same.symm.trans auxiliary
    cases (keeps.controls controls_wave).curve.symm.trans hx
    exact first e on' start
  · obtain ⟨c, u, h, on, keeps, auxiliary, start⟩ := exists_placed_wave 1
    obtain ⟨e, on', -⟩ := exists_on .pCoincident [⟨8⟩, ⟨1⟩] .empty grounded_wave rfl
      (.cons ⟨_, rfl, rfl⟩ (.cons ⟨_, rfl, rfl⟩ .nil)) keeps
    refine ⟨c, e, u, on, on', fun {_} => ?_⟩
    obtain ⟨t, x, b, p, same, hx, -, -, -, -, last⟩ := (residuals_follow_path c).2.1 _ _ _ on
    cases same.symm.trans auxiliary
    cases (keeps.controls controls_wave).curve.symm.trans hx
    exact last e on' start
  · obtain ⟨c, u, made, -, -, options⟩ := exists_makes .tangentLineBezier [⟨4⟩, ⟨9⟩] .empty
      ⟨2, 1 / 2, 0, 1⟩ grounded_wave rfl (.cons ⟨_, rfl, rfl⟩ (.cons ⟨_, rfl, rfl⟩ .nil))
    have on := made.on grounded_wave made.keeps
    refine ⟨c, u, made, on, fun {_} => ?_⟩
    obtain ⟨-, -, touches, starts⟩ := residuals_follow_path c
    obtain ⟨t, px, py, nx, ny, b, l, a, auxiliary, hb, hl, ha, zero⟩ := touches _ _ _ on
    obtain ⟨t', rest, x, y, same, initial, values⟩ := starts _ _ _ _ grounded_wave live_wave made
    obtain ⟨_, _, _, _, _, _, _, _, same', hb', -, -, gaps⟩ := on.tangentLineBezier
    cases auxiliary.symm.trans same
    cases auxiliary.symm.trans same'
    cases hb.symm.trans hb'
    have path : u.path ⟨9⟩ = .ok (.cubic ⟨-1, 1⟩ ⟨-1, -1⟩ ⟨1, 1⟩ ⟨1, -1⟩) :=
      made.path live_wave controls_wave
    cases path.symm.trans hb
    have line : u.segment ⟨4⟩ = .ok ⟨⟨2⟩, ⟨3⟩, ⟨7, 1⟩, ⟨8, 1⟩⟩ :=
      made.keeps.asA (rfl : wave.segment ⟨4⟩ = _)
    cases line.symm.trans hl
    have anchor : u.position ⟨2⟩ = .ok ⟨-1, 0⟩ := made.position live_wave rfl
    cases anchor.symm.trans ha
    have level : u.value ⟨7, 1⟩ = 0 := made.value rfl
    rw [options] at initial
    have middle : Path.spot (.cubic ⟨-1, 1⟩ ⟨-1, -1⟩ ⟨1, 1⟩ ⟨1, -1⟩) (1 / 2) = ⟨0, 0⟩ := by
      norm_num [Path.spot, Path.cubic, eval_bernstein]
    have tangent : (Path.cubic ⟨-1, 1⟩ ⟨-1, -1⟩ ⟨1, 1⟩ ⟨1, -1⟩).tangent.spot (1 / 2) = ⟨3, 0⟩ := by
      norm_num [Path.spot, Path.tangent, Path.cubic, eval_derivative_bernstein]
    rw [values, initial] at gaps
    simp only [Path.gaps, middle, tangent, Except.ok.injEq, List.cons.injEq] at gaps
    obtain ⟨hx, hy, hnx, hny, -⟩ := gaps
    rw [initial, level, middle, tangent] at zero
    refine zero.mpr ⟨?_, ?_, ⟨3, ?_⟩, 1, ?_⟩
    · exact Vec.ext (sub_eq_zero.mp hx.symm).symm (sub_eq_zero.mp hy.symm).symm
    · exact Vec.ext (sub_eq_zero.mp hnx.symm).symm (sub_eq_zero.mp hny.symm).symm
    · simp [Vec.unit, Vec.scale]
    · simp [Vec.unit, Vec.scale, Vec.add]

end Constraint

end Drafting
