import Drafting.Proofs.Lines

namespace Drafting

open Coefficient (ofInt)

/-- A quarter turn to the left. -/
noncomputable def Vec.turned (v : Vec ℝ) : Vec ℝ := ⟨-v.y, v.x⟩

/-- The point is on the ellipse that has an axis from `e₁` to `e₂` and reaches `r` across it. -/
def OnEllipse (e₁ e₂ : Vec ℝ) (r : ℝ) (p : Vec ℝ) : Prop :=
  let axis := e₂.sub e₁
  let along := axis.shrink axis.norm
  let d := p.sub ((e₁.add e₂).shrink (ofInt 2))
  (d.dot along / (axis.norm / ofInt 2)) ^ 2 + (d.dot along.turned / r) ^ 2 = 1

/-- How far an axis is from one in direction `ψ` with half the length `l`, and how far a point is
from the one at the angle `θ`. -/
noncomputable def ellipseGaps (e₁ e₂ p : Vec ℝ) (r θ ψ l : ℝ) : List ℝ :=
  let axis := e₂.sub e₁
  let d := p.sub ((e₁.add e₂).shrink (ofInt 2))
  [axis.x - Real.cos ψ * (l + l), axis.y - Real.sin ψ * (l + l),
    l * Real.cos θ * Real.cos ψ - r * Real.sin θ * Real.sin ψ - d.x,
    l * Real.cos θ * Real.sin ψ + r * Real.sin θ * Real.cos ψ - d.y]

namespace Exact

theorem evaluate_pointOnEllipse (value : Handle → ℝ)
    (e1x e1y e2x e2y r theta psi l px py : Handle) :
    (Residual.pointOnEllipse e1x e1y e2x e2y r theta psi l px py).map (·.evaluate value) =
      ellipseGaps ⟨value e1x, value e1y⟩ ⟨value e2x, value e2y⟩ ⟨value px, value py⟩ (value r)
        (value theta) (value psi) (value l) := by
  simp only [Residual.pointOnEllipse, List.map_cons, List.map_nil, evaluate_eq,
    Residual.evaluateWith_sum, Residual.evaluateWith_weighted, Monomial.evaluateWith_mk]
  simp [ellipseGaps, Vec.sub, Vec.add, Vec.shrink]
  refine ⟨?_, ?_, ?_, ?_⟩ <;> ring

theorem norm_pos {a b : Vec ℝ} (apart : a ≠ b) : 0 < (b.sub a).norm := by
  rw [norm_eq]
  apply norm_pos_iff.mpr
  intro none
  obtain ⟨hx, hy⟩ := Complex.ext_iff.mp none
  exact apart (Vec.ext (sub_eq_zero.mp hx).symm (sub_eq_zero.mp hy).symm)

/-- A step of a length goes that far in its direction. -/
theorem shrink_norm {d : Vec ℝ} (hd : 0 < d.norm) :
    d.shrink d.norm = Vec.unit (Scalar.atan2 d.y d.x) := by
  ext
  · exact (div_eq_iff hd.ne').mpr (cos_atan2 d).symm
  · exact (div_eq_iff hd.ne').mpr (sin_atan2 d).symm

/-- A step is as far along and across a direction as its parts are. -/
theorem parts_iff {d : Vec ℝ} {ψ u v : ℝ} :
    d.dot (Vec.unit ψ) = u ∧ d.dot (Vec.unit ψ).turned = v ↔
      u * Real.cos ψ - v * Real.sin ψ - d.x = 0 ∧ u * Real.sin ψ + v * Real.cos ψ - d.y = 0 := by
  have turn := Real.cos_sq_add_sin_sq ψ
  have along : d.dot (Vec.unit ψ) = d.x * Real.cos ψ + d.y * Real.sin ψ := rfl
  have across : d.dot (Vec.unit ψ).turned = d.x * -Real.sin ψ + d.y * Real.cos ψ := rfl
  rw [along, across]
  constructor
  · rintro ⟨rfl, rfl⟩
    constructor
    · linear_combination d.x * turn
    · linear_combination d.y * turn
  · rintro ⟨hx, hy⟩
    constructor
    · linear_combination u * turn - Real.cos ψ * hx - Real.sin ψ * hy
    · linear_combination v * turn + Real.sin ψ * hx - Real.cos ψ * hy

theorem ellipseAngle_eq {center p : Vec ℝ} {ψ half r : ℝ} (hl : 0 < half) (hr : r ≠ 0) :
    Kind.ellipseAngle center p ψ half r =
      Scalar.atan2 ((p.sub center).dot (Vec.unit ψ).turned / r)
        ((p.sub center).dot (Vec.unit ψ) / half) := by
  have proper : (Scalar.lt (ofInt 0) half && r != ofInt 0) = true := by
    simp [hl, hr]
  have across : -(p.sub center).x * Scalar.sin ψ + (p.sub center).y * Scalar.cos ψ =
      (p.sub center).dot (Vec.unit ψ).turned := by
    simp only [Vec.dot, Vec.turned, Vec.unit, sin_eq, cos_eq]
    ring
  simp only [Kind.ellipseAngle]
  rw [if_pos proper, across]
  rfl

/-- The angle that a point of an ellipse is given leads back to it. -/
theorem ellipseAngle_spec {center p : Vec ℝ} {ψ half r : ℝ} (hl : 0 < half) (hr : r ≠ 0)
    (on : ((p.sub center).dot (Vec.unit ψ) / half) ^ 2 +
      ((p.sub center).dot (Vec.unit ψ).turned / r) ^ 2 = 1) :
    (p.sub center).dot (Vec.unit ψ) = half * Real.cos (Kind.ellipseAngle center p ψ half r) ∧
      (p.sub center).dot (Vec.unit ψ).turned =
        r * Real.sin (Kind.ellipseAngle center p ψ half r) := by
  rw [ellipseAngle_eq hl hr]
  generalize (p.sub center).dot (Vec.unit ψ) = u at on ⊢
  generalize (p.sub center).dot (Vec.unit ψ).turned = v at on ⊢
  -- scaled to a circle the point is at distance one, so that its angle is all there is to it
  have unit : (⟨u / half, v / r⟩ : Vec ℝ).norm = 1 := by
    rw [← sq_eq_sq₀ (norm_nonneg _) zero_le_one, norm_sq, on, one_pow]
  have hcos := cos_atan2 ⟨u / half, v / r⟩
  have hsin := sin_atan2 ⟨u / half, v / r⟩
  rw [unit, mul_one] at hcos hsin
  rw [hcos, hsin]
  constructor
  · field_simp
  · field_simp

end Exact

section Gaps

variable {e₁ e₂ p : Vec ℝ} {r θ ψ l : ℝ}

theorem ellipseGaps_eq_zero_iff : ellipseGaps e₁ e₂ p r θ ψ l = List.replicate 4 0 ↔
    e₂.sub e₁ = (Vec.unit ψ).scale (l + l) ∧
      (p.sub ((e₁.add e₂).shrink (ofInt 2))).dot (Vec.unit ψ) = l * Real.cos θ ∧
      (p.sub ((e₁.add e₂).shrink (ofInt 2))).dot (Vec.unit ψ).turned = r * Real.sin θ := by
  rw [Exact.parts_iff, Vec.ext_iff]
  simp only [ellipseGaps, List.replicate, List.cons.injEq, and_true, and_assoc, sub_eq_zero,
    Vec.scale, Vec.unit]

/-- Zero gaps leave no choice of the axis, and put the point on the ellipse. -/
theorem onEllipse_of_gaps (zero : ellipseGaps e₁ e₂ p r θ ψ l = List.replicate 4 0) (hl : 0 < l)
    (hr : r ≠ 0) : l = (e₂.sub e₁).norm / 2 ∧ Vec.unit ψ = (e₂.sub e₁).shrink (e₂.sub e₁).norm ∧
      OnEllipse e₁ e₂ r p := by
  obtain ⟨axis, along, across⟩ := ellipseGaps_eq_zero_iff.mp zero
  have long : l + l ≠ 0 := by linarith
  have length : (e₂.sub e₁).norm = l + l := by
    rw [axis, Exact.norm_scale_unit (by linarith)]
  have direction : (e₂.sub e₁).shrink (l + l) = Vec.unit ψ := by
    rw [axis]
    exact Vec.ext (mul_div_cancel_right₀ _ long) (mul_div_cancel_right₀ _ long)
  have half : (l + l) / ofInt 2 = l := by
    rw [Exact.two_eq]
    ring
  refine ⟨by linarith, by rw [length, direction], ?_⟩
  simp only [OnEllipse]
  rw [length, direction, along, across, half, mul_div_cancel_left₀ _ hl.ne',
    mul_div_cancel_left₀ _ hr, Real.cos_sq_add_sin_sq]

/-- The axis of an ellipse has the angle and the length that are taken for it. -/
theorem axis_eq (e₁ e₂ : Vec ℝ) :
    e₂.sub e₁ = (Vec.unit (Scalar.atan2 (e₂.sub e₁).y (e₂.sub e₁).x)).scale
      ((e₂.sub e₁).norm / ofInt 2 + (e₂.sub e₁).norm / ofInt 2) := by
  have whole : (e₂.sub e₁).norm / ofInt 2 + (e₂.sub e₁).norm / ofInt 2 = (e₂.sub e₁).norm := by
    rw [Exact.two_eq]
    ring
  rw [whole]
  exact Vec.ext (Exact.cos_atan2 _).symm (Exact.sin_atan2 _).symm

/-- That is so even if the ends are one. -/
theorem exists_ellipseGaps (e₁ e₂ p : Vec ℝ) (r θ : ℝ) : ∃ x y,
    ellipseGaps e₁ e₂ p r θ (Scalar.atan2 (e₂.sub e₁).y (e₂.sub e₁).x)
      ((e₂.sub e₁).norm / ofInt 2) = [0, 0, x, y] := by
  obtain ⟨hx, hy⟩ := Vec.ext_iff.mp (axis_eq e₁ e₂)
  refine ⟨_, _, List.cons_eq_cons.mpr ⟨?_, List.cons_eq_cons.mpr ⟨?_, rfl⟩⟩⟩
  · exact sub_eq_zero.mpr hx
  · exact sub_eq_zero.mpr hy

/-- Of a point on an ellipse nothing is left once it has its angle. -/
theorem gaps_of_onEllipse (apart : e₁ ≠ e₂) (hr : r ≠ 0) (on : OnEllipse e₁ e₂ r p)
    (hψ : Scalar.atan2 (e₂.sub e₁).y (e₂.sub e₁).x = ψ) (hl : (e₂.sub e₁).norm / ofInt 2 = l) :
    ellipseGaps e₁ e₂ p r (Kind.ellipseAngle ((e₁.add e₂).shrink (ofInt 2)) p ψ l r) ψ l =
      List.replicate 4 0 := by
  have long := Exact.norm_pos apart
  have half : 0 < l := by
    rw [Exact.two_eq] at hl
    linarith
  simp only [OnEllipse] at on
  rw [Exact.shrink_norm long, hψ, hl] at on
  obtain ⟨along, across⟩ := Exact.ellipseAngle_spec half hr on
  apply ellipseGaps_eq_zero_iff.mpr
  refine ⟨?_, along, across⟩
  subst hψ hl
  exact axis_eq e₁ e₂

end Gaps

namespace Constraint

open Sketch

section Evaluated

variable [Written ℝ] {c : Constraint ℝ} {s t u : Sketch ℝ} {pt el : ObjectId}

/-- Over the scope of a point on an ellipse, with any new parameters. -/
theorem residualValues_onEllipse {v : Sketch ℝ} {p p₁ p₂ : Point} {r : Handle} {f₁ f₂ f₃ : Param ℝ}
    (scope : c.kind = .pointOnEllipse ∧
      Realized v ([p₁.x, p₁.y, p₂.x, p₂.y, r].map .held ++ .fresh f₁ :: .fresh f₂ :: .fresh f₃ ::
        [p.x, p.y].map .held) c.params c.auxiliary) :
    ∃ θ ψ l, c.auxiliary = [θ, ψ, l] ∧
      List.Forall₂ (fun h f => v.param? h = some f) [θ, ψ, l] [f₁, f₂, f₃] ∧
      ∀ u : Sketch ℝ, c.residualValues u = .ok (ellipseGaps (u.spot p₁) (u.spot p₂) (u.spot p)
        (u.value r) (u.value θ) (u.value ψ) (u.value l)) := by
  obtain ⟨kind, realized⟩ := scope
  obtain ⟨params, found⟩ := Realized.between [_, _, _, _, _] [_, _, _] [_, _] realized
  generalize auxiliary : c.auxiliary = news at params found
  obtain _ | ⟨hθ, _ | ⟨hψ, _ | ⟨hl, _ | _⟩⟩⟩ := found
  refine ⟨_, _, _, rfl, .cons hθ (.cons hψ (.cons hl .nil)), fun u => ?_⟩
  have values : c.residualValues u = .ok ((Residual.pointOnEllipse _ _ _ _ _ _ _ _ _ _).map
      (·.evaluate u.value)) := residualValues_eq ⟨kind, params⟩ rfl
  rw [Exact.evaluate_pointOnEllipse] at values
  exact values

theorem On.pointOnEllipse (h : c.On .pointOnEllipse [pt, el] u) :
    ∃ θ ψ l e p e₁ e₂, c.auxiliary = [θ, ψ, l] ∧ u.ellipse el = .ok e ∧ u.position pt = .ok p ∧
      u.position e.ep1 = .ok e₁ ∧ u.position e.ep2 = .ok e₂ ∧
      c.residualValues u = .ok (ellipseGaps e₁ e₂ p (u.value e.r) (u.value θ) (u.value ψ)
        (u.value l)) := by
  obtain ⟨s, v, g, keeps, fits, scope⟩ := h.exists_scope rfl
  obtain ⟨isPoint, isEllipse⟩ := fits_pair.mp fits
  obtain ⟨p, hp⟩ := exists_point.mpr isPoint
  obtain ⟨e, p₁, p₂, he, h₁, h₂⟩ := g.exists_ellipse isEllipse
  obtain ⟨θ, ψ, l, auxiliary, -, values⟩ :=
    residualValues_onEllipse (scope _ (Gather.adds_pointOnEllipse hp he h₁ h₂ rfl rfl rfl rfl))
  exact ⟨θ, ψ, l, e, _, _, _, auxiliary, keeps.asA he, position_of_point (keeps.asA hp),
    position_of_point (keeps.asA h₁), position_of_point (keeps.asA h₂), values u⟩

/-- The axis is right from the start, and the point if it is on the ellipse. -/
theorem Makes.pointOnEllipse (made : Makes .pointOnEllipse [pt, el] s c t) (g : s.Grounded)
    (live : s.Live) :
    ∃ θ ψ l e p e₁ e₂ x y, c.auxiliary = [θ, ψ, l] ∧ s.ellipse el = .ok e ∧ s.position pt = .ok p ∧
      s.position e.ep1 = .ok e₁ ∧ s.position e.ep2 = .ok e₂ ∧
      t.value l = (e₂.sub e₁).norm / ofInt 2 ∧ c.residualValues t = .ok [0, 0, x, y] ∧
      (e₁ ≠ e₂ → s.value e.r ≠ 0 → OnEllipse e₁ e₂ (s.value e.r) p →
        c.residualValues t = .ok (List.replicate 4 0)) := by
  obtain ⟨isPoint, isEllipse⟩ := fits_pair.mp (made.fits g rfl)
  obtain ⟨p, hp⟩ := exists_point.mpr isPoint
  obtain ⟨e, p₁, p₂, he, h₁, h₂⟩ := g.exists_ellipse isEllipse
  have scope := made.realized rfl
    (Gather.adds_pointOnEllipse (s := s.numbered) hp he h₁ h₂ rfl rfl rfl rfl)
  obtain ⟨θ, ψ, l, auxiliary, found, values⟩ := residualValues_onEllipse scope
  obtain _ | ⟨hθ, _ | ⟨hψ, _ | ⟨hl, _ | _⟩⟩⟩ := found
  have shown := values t
  rw [made.spot live hp, made.spot live h₁, made.spot live h₂, made.value (live.ellipse he),
    value_of_param? hθ, value_of_param? hψ, value_of_param? hl] at shown
  obtain ⟨x, y, start⟩ := exists_ellipseGaps (s.spot p₁) (s.spot p₂) (s.spot p) (s.value e.r)
    (Kind.ellipseAngle _ _ _ _ _)
  refine ⟨θ, ψ, l, e, s.spot p, s.spot p₁, s.spot p₂, x, y, auxiliary, he, position_of_point hp,
    position_of_point h₁, position_of_point h₂, value_of_param? hl,
    shown.trans (congrArg Except.ok start), fun apart hr on => ?_⟩
  exact shown.trans (congrArg Except.ok (gaps_of_onEllipse apart hr on rfl rfl))

variable (c) in
/-- Where all residuals of a point on an ellipse are zero, the new parameters are half the length
and the direction of the axis, if that half is positive and the ellipse reaches across, and the
point is on the ellipse. They start with the axis, even one without length, and are all zero from
the start for a point of a proper ellipse. -/
theorem residuals_fit_ellipse :
    (∀ u pt el, c.On .pointOnEllipse [pt, el] u →
      ∃ θ ψ l e p e₁ e₂, c.auxiliary = [θ, ψ, l] ∧ u.ellipse el = .ok e ∧ u.position pt = .ok p ∧
        u.position e.ep1 = .ok e₁ ∧ u.position e.ep2 = .ok e₂ ∧
        (c.residualValues u = .ok (List.replicate 4 0) → 0 < u.value l → u.value e.r ≠ 0 →
          u.value l = (e₂.sub e₁).norm / 2 ∧
          Vec.unit (u.value ψ) = (e₂.sub e₁).shrink (e₂.sub e₁).norm ∧
          OnEllipse e₁ e₂ (u.value e.r) p)) ∧
    ∀ s t pt el, Sketch.Grounded s → s.Live → Makes .pointOnEllipse [pt, el] s c t →
      ∃ e p e₁ e₂ x y, s.ellipse el = .ok e ∧ s.position pt = .ok p ∧ s.position e.ep1 = .ok e₁ ∧
        s.position e.ep2 = .ok e₂ ∧ c.residualValues t = .ok [0, 0, x, y] ∧
        (e₁ ≠ e₂ → s.value e.r ≠ 0 → OnEllipse e₁ e₂ (s.value e.r) p →
          c.residualValues t = .ok (List.replicate 4 0)) := by
  constructor
  · intro u pt el h
    obtain ⟨θ, ψ, l, e, p, e₁, e₂, auxiliary, he, hp, h₁, h₂, values⟩ := h.pointOnEllipse
    refine ⟨θ, ψ, l, e, p, e₁, e₂, auxiliary, he, hp, h₁, h₂, fun zero => ?_⟩
    rw [values] at zero
    exact onEllipse_of_gaps (Except.ok.inj zero)
  · intro s t pt el g live made
    obtain ⟨-, -, -, e, p, e₁, e₂, x, y, -, he, hp, h₁, h₂, -, start, exact'⟩ :=
      made.pointOnEllipse g live
    exact ⟨e, p, e₁, e₂, x, y, he, hp, h₁, h₂, start, exact'⟩

end Evaluated

noncomputable def upright : Sketch ℝ :=
  let ellipse := ((addEllipse ⟨0, -1⟩ ⟨0, 1⟩ (-(1 + 1))).run .empty).2
  ((addPoint ⟨1 + 1, 0⟩).run ellipse).2

theorem grounded_upright : upright.Grounded := by
  have ellipse := (drawn_addEllipse (⟨0, -1⟩ : Vec ℝ) ⟨0, 1⟩ (-(1 + 1)) .empty).ordered .empty
  exact ((drawn_addPoint ⟨1 + 1, 0⟩ ellipse).1.ordered ellipse).grounded

theorem live_upright : upright.Live := by
  show ∀ h ∈ upright.fields, (upright.param? h).isSome
  decide

theorem norm_upright : (Vec.sub ⟨0, 1⟩ ⟨0, -1⟩ : Vec ℝ).norm = 2 := by
  rw [← sq_eq_sq₀ (Exact.norm_nonneg _) zero_le_two, Exact.norm_sq]
  norm_num [Vec.sub]

theorem onEllipse_upright : OnEllipse ⟨0, -1⟩ ⟨0, 1⟩ (-(1 + 1)) ⟨1 + 1, 0⟩ := by
  simp only [OnEllipse]
  rw [norm_upright]
  norm_num [Vec.shrink, Vec.sub, Vec.add, Vec.dot, Vec.turned]

/-- The point starts on the ellipse, and there the new parameters are those of the axis. -/
theorem residuals_fit_ellipse_upright : ∃ (c : Constraint ℝ) (t : Sketch ℝ),
    Makes .pointOnEllipse [⟨4⟩, ⟨3⟩] upright c t ∧ c.On .pointOnEllipse [⟨4⟩, ⟨3⟩] t ∧
      ∀ [Written ℝ], c.residualValues t = .ok (List.replicate 4 0) ∧
        ∃ θ ψ l, c.auxiliary = [θ, ψ, l] ∧ t.value l = 1 ∧ Vec.unit (t.value ψ) = ⟨0, 1⟩ := by
  obtain ⟨c, t, made, -⟩ := exists_makes .pointOnEllipse [⟨4⟩, ⟨3⟩] .empty .standard
    grounded_upright rfl (.cons ⟨_, rfl, rfl⟩ (.cons ⟨_, rfl, rfl⟩ .nil))
  have on := made.on grounded_upright made.keeps
  refine ⟨c, t, made, on, fun {_} => ?_⟩
  obtain ⟨sound, start⟩ := residuals_fit_ellipse c
  have ellipse : upright.ellipse ⟨3⟩ = .ok ⟨⟨1⟩, ⟨2⟩, ⟨5, 1⟩⟩ := rfl
  have point : upright.position ⟨4⟩ = .ok ⟨1 + 1, 0⟩ := rfl
  have low : upright.position ⟨1⟩ = .ok ⟨0, -1⟩ := rfl
  have high : upright.position ⟨2⟩ = .ok ⟨0, 1⟩ := rfl
  have across : upright.value ⟨5, 1⟩ = -(1 + 1) := rfl
  have zero : c.residualValues t = .ok (List.replicate 4 0) := by
    obtain ⟨e, p, e₁, e₂, x, y, he, hp, h₁, h₂, -, zero⟩ :=
      start _ _ _ _ grounded_upright live_upright made
    cases ellipse.symm.trans he
    cases point.symm.trans hp
    cases low.symm.trans h₁
    cases high.symm.trans h₂
    rw [across] at zero
    refine zero (fun same => ?_) (by norm_num) onEllipse_upright
    have ends : (-1 : ℝ) = 1 := congrArg Vec.y same
    norm_num at ends
  refine ⟨zero, ?_⟩
  obtain ⟨θ, ψ, l, e, p, e₁, e₂, auxiliary, he, hp, h₁, h₂, fit⟩ := sound _ _ _ on
  cases (made.keeps.asA ellipse).symm.trans he
  cases (made.position live_upright low).symm.trans h₁
  cases (made.position live_upright high).symm.trans h₂
  have half : t.value l = 1 := by
    obtain ⟨_, _, _, e, _, _, _, _, _, same, he, -, h₁, h₂, half, -⟩ :=
      made.pointOnEllipse grounded_upright live_upright
    cases same.symm.trans auxiliary
    cases ellipse.symm.trans he
    cases low.symm.trans h₁
    cases high.symm.trans h₂
    rw [half, norm_upright, Exact.two_eq]
    norm_num
  have reach : t.value ⟨5, 1⟩ = -(1 + 1) := made.value rfl
  obtain ⟨-, direction, -⟩ :=
    fit zero (by rw [half]; norm_num) (by rw [reach]; norm_num)
  refine ⟨θ, ψ, l, auxiliary, half, ?_⟩
  rw [direction, norm_upright]
  norm_num [Vec.shrink, Vec.sub]

end Constraint

end Drafting
