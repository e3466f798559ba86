import Drafting.Proofs.Distances

namespace Drafting

open Coefficient (ofInt)
open Constant (Definition Raw Resolved Value)

def Constant.Value.raw {K : Type} : Value K → Raw K
  | .number x => .number x
  | .flag b => .flag b

namespace Constraint

variable {K : Type}

def withMeasured (c : Constraint K) (values : List (String × Value K)) : Constraint K :=
  { c with constants := .ofList (values.map fun v => (v.1, v.2.raw)) }

variable [Scalar K] [Written K]

/-- The constants are resolved, by their definitions, to what was measured. -/
theorem resolved_withMeasured {c : Constraint K} {k : Kind} {values : List (String × Value K)}
    (kind : c.kind = k) (names : List.Forall₂ Definition.Names k.definitions values) :
    List.Forall₂ (fun d v => (c.withMeasured values).resolved.get? d.name =
      some (d.resolve v.2.raw)) k.definitions values := by
  subst kind
  refine List.forall₂_iff_zip.mpr ⟨names.length_eq, fun {d v} paired => ?_⟩
  obtain ⟨hd, hv⟩ := List.of_mem_zip paired
  have same : v.1 = d.name := ((List.forall₂_iff_zip.mp names).2 paired).1
  exact Constant.get?_resolve c.kind.names_rising hd
    (same ▸ Kind.get?_of_names names Value.raw hv)

end Constraint

namespace Exact

theorem toRadians_eq (x : ℝ) : Angle.toRadians x = x * (Real.pi / 180) := by
  rw [Angle.toRadians, ofInt_eq, Int.cast_ofNat]
  rfl

theorem toDegrees_eq (x : ℝ) : Angle.toDegrees x = x * (180 / Real.pi) := by
  rw [Angle.toDegrees, ofInt_eq, Int.cast_ofNat]
  rfl

/-- In degrees, within one turn and back again, an angle has lost whole turns. -/
theorem toRadians_wrapDegrees (x : ℝ) :
    ∃ n : ℤ, Angle.toRadians (Angle.wrapDegrees (Angle.toDegrees x)) = x + n * (2 * Real.pi) := by
  obtain ⟨-, -, n, whole⟩ := wrapDegrees_spec (Angle.toDegrees x)
  refine ⟨n, ?_⟩
  have half : Real.pi ≠ 0 := Real.pi_ne_zero
  rw [whole, toDegrees_eq, toRadians_eq]
  field_simp
  ring

/-- An angle that was measured is within one turn, so that turning it back changes nothing. -/
theorem convert_wrapDegrees (x : ℝ) :
    Constant.Scale.turnedDegrees.convert (Angle.wrapDegrees x) =
      Angle.toRadians (Angle.wrapDegrees x) := by
  obtain ⟨lower, upper, -⟩ := wrapDegrees_spec x
  have full : (ofInt 360 : ℝ) = 360 := Int.cast_ofNat 360
  have within : |Angle.wrapDegrees x| < ofInt 360 := by rwa [abs_of_nonneg lower, full]
  rw [Constant.Scale.convert, rem_of_abs_lt within]

/-- On the side that is measured a point exceeds a distance by as much as it is off the line. -/
theorem abs_excess_measured (l : Line ℝ) (p : Vec ℝ) (d : ℝ) :
    |l.excess p d (Scalar.lt (l.signedDistance p) (ofInt 0))| = |(|l.signedDistance p| - d)| := by
  rw [Line.excess]
  by_cases below : l.signedDistance p < 0
  · have side : Scalar.lt (l.signedDistance p) (ofInt 0) = true := by simpa using below
    rw [if_pos side, abs_of_neg below, ← abs_neg]
    ring_nf
  · have side : ¬Scalar.lt (l.signedDistance p) (ofInt 0) = true := by simpa using below
    rw [if_neg side, abs_of_nonneg (not_lt.mp below)]

/-- No side makes less of a distance than the one that is measured. -/
theorem abs_excess_le (l : Line ℝ) (p : Vec ℝ) {d : ℝ} (hd : 0 ≤ d) (inverted : Bool) :
    |l.excess p d (Scalar.lt (l.signedDistance p) (ofInt 0))| ≤ |l.excess p d inverted| := by
  rw [abs_excess_measured, Line.excess]
  have size : |d| = d := abs_of_nonneg hd
  cases inverted with
  | false => simpa [size] using abs_abs_sub_abs_le_abs_sub (l.signedDistance p) d
  | true => simpa [size] using abs_abs_sub_abs_le_abs_sub (l.signedDistance p) (-d)

theorem evaluate_offset (value : Handle → ℝ) (h : Handle) (x : ℝ) :
    (Residual.offset h x).evaluate value = value h - x := by
  rw [evaluate_eq, Residual.offset, Polynomial.evaluateWith_mk]
  simp
  ring

theorem evaluate_angleBetween (value : Handle → ℝ) (ang1 ang2 : Handle) (x : ℝ) :
    (Residual.angleBetween ang1 ang2 x).evaluate value = value ang2 - value ang1 - x := by
  rw [evaluate_eq, Residual.angleBetween, Polynomial.evaluateWith_mk]
  simp
  ring

end Exact

namespace Kind

/-- The constants of the kind can be measured of the objects, and there are constraints of the kind
on them. With the constants as measured, each such constraint has residuals whose values are as `P`
says. -/
def Satisfies [Written ℝ] (k : Kind) (objects : List ObjectId) (u : Sketch ℝ)
    (P : List ℝ → Prop) : Prop :=
  ∃ values, k.measure u objects = .ok values ∧ (∃ c : Constraint ℝ, c.On k objects u) ∧
    ∀ c : Constraint ℝ, c.On k objects u →
      ∃ xs, (c.withMeasured values).residualValues u = .ok xs ∧ P xs

end Kind

namespace Constraint

open Sketch

section Evaluated

variable [Written ℝ] {c : Constraint ℝ} {u : Sketch ℝ} {pt rd seg seg₁ seg₂ : ObjectId}

theorem On.lockPoint (h : c.On .lockPoint [pt] u) :
    ∃ p, u.position pt = .ok p ∧
      c.residualValues u = .ok [p.x - c.resolved.number "x", p.y - c.resolved.number "y"] := by
  obtain ⟨s, t, g, keeps, fits, scope⟩ := h.exists_scope rfl
  obtain ⟨_, same, isPoint⟩ := fits_one.mp fits
  cases same
  obtain ⟨p, hp⟩ := exists_point.mpr isPoint
  have values : c.residualValues u = .ok [(Residual.offset _ _).evaluate u.value,
      (Residual.offset _ _).evaluate u.value] :=
    residualValues_of_held (scope _ (Gather.adds_lockPoint hp)) rfl
  rw [Exact.evaluate_offset, Exact.evaluate_offset] at values
  exact ⟨_, position_of_point (keeps.asA hp), values⟩

theorem On.radiusLength (h : c.On .radiusLength [rd] u) :
    ∃ r, u.round rd = .ok r ∧
      c.residualValues u = .ok [u.value r.r - c.resolved.number "length"] := by
  obtain ⟨s, t, g, keeps, fits, scope⟩ := h.exists_scope rfl
  obtain ⟨_, same, isRound⟩ := fits_one.mp fits
  cases same
  obtain ⟨r, m, hr, -⟩ := g.exists_round isRound
  have values : c.residualValues u = .ok [(Residual.offset _ _).evaluate u.value] :=
    residualValues_of_held (scope _ (Gather.adds_radiusLength hr)) rfl
  rw [Exact.evaluate_offset] at values
  exact ⟨r, keeps.asA hr, values⟩

theorem On.segmentLength (h : c.On .segmentLength [seg] u) :
    ∃ l, u.segment seg = .ok l ∧
      c.residualValues u = .ok [u.value l.t - c.resolved.number "length"] := by
  obtain ⟨s, t, g, keeps, fits, scope⟩ := h.exists_scope rfl
  obtain ⟨_, same, isSegment⟩ := fits_one.mp fits
  cases same
  obtain ⟨l, hl⟩ := Sketch.exists_segment.mpr isSegment
  have values : c.residualValues u = .ok [(Residual.offset _ _).evaluate u.value] :=
    residualValues_of_held (scope _ (Gather.adds_ofSegment Segment.t hl)) rfl
  rw [Exact.evaluate_offset] at values
  exact ⟨l, keeps.asA hl, values⟩

theorem On.angle (h : c.On .angle [seg] u) :
    ∃ l, u.segment seg = .ok l ∧
      c.residualValues u = .ok [u.value l.ang - c.resolved.number "angle"] := by
  obtain ⟨l, hl, residuals⟩ := h.residuals_direction (.inl rfl)
  have values : c.residualValues u = .ok [(Residual.offset _ _).evaluate u.value] :=
    residualValues_of residuals
  rw [Exact.evaluate_offset] at values
  exact ⟨l, hl, values⟩

theorem On.angleBetween (h : c.On .angleBetween [seg₁, seg₂] u) :
    ∃ l l', u.segment seg₁ = .ok l ∧ u.segment seg₂ = .ok l' ∧
      c.residualValues u =
        .ok [u.value l'.ang - u.value l.ang - c.resolved.number "angle"] := by
  obtain ⟨l, l', hl, hl', residuals⟩ := h.residuals_turn (.inl rfl)
  have values : c.residualValues u = .ok [(Residual.angleBetween _ _ _).evaluate u.value] :=
    residualValues_of residuals
  rw [Exact.evaluate_angleBetween] at values
  exact ⟨l, l', hl, hl', values⟩

end Evaluated

end Constraint

namespace Kind

open Sketch Constraint

section Satisfied

variable [Written ℝ] {u : Sketch ℝ} {k : Kind} {objects : List ObjectId}
  {P : List ℝ → Prop}

/-- It is enough to look at one constraint on the objects, as all of them have the same
residuals. -/
theorem satisfies_of (g : u.Grounded) (residual : k.isModifier = false)
    (fits : u.Fits k.signature objects) {values : List (String × Value ℝ)}
    (known : k.definitions.isEmpty = false) (measured : k.measured? u objects = some (.ok values))
    (names : List.Forall₂ Definition.Names k.definitions values)
    (h : ∀ c : Constraint ℝ, c.On k objects u →
      List.Forall₂ (fun d v => c.resolved.get? d.name = some (d.resolve v.2.raw)) k.definitions
        values →
      ∃ xs, c.residualValues u = .ok xs ∧ P xs) :
    k.Satisfies objects u P := by
  obtain ⟨c, on, -⟩ := exists_on k objects .empty g residual fits fun _ e he => ⟨e, he, rfl⟩
  refine ⟨values, measure_of_measured known measured, ⟨c, on⟩, fun c on => ?_⟩
  exact h (c.withMeasured values) (on.withConstants _) (resolved_withMeasured on.kind names)

theorem satisfies_distancePP (g : u.Grounded) {p₁ p₂ : ObjectId}
    (fits : u.Fits Kind.distancePP.signature [p₁, p₂]) :
    Kind.distancePP.Satisfies [p₁, p₂] u fun xs => xs = [0] := by
  obtain ⟨isFirst, isSecond⟩ := fits_pair.mp fits
  obtain ⟨v, hv⟩ := exists_position.mpr isFirst
  obtain ⟨w, hw⟩ := exists_position.mpr isSecond
  have measured : Kind.distancePP.measured? u [p₁, p₂] =
      some (.ok [("distance", .number (v.sub w).norm)]) := by
    rw [measured?, pointDistance, hv, hw]
    rfl
  refine satisfies_of g rfl fits rfl measured (.cons ⟨rfl, rfl⟩ .nil)
    fun c on known => ?_
  obtain ⟨v', w', hv', hw', values⟩ := on.distancePP
  cases hv.symm.trans hv'
  cases hw.symm.trans hw'
  have distance : c.resolved.number "distance" = (v.sub w).norm :=
    Resolved.number_of_get? (List.forall₂_cons.mp known).1
  rw [distance, sub_self] at values
  exact ⟨_, values, rfl⟩

/-- The side is measured with the distance, so that nothing is left on it. -/
theorem satisfies_distancePL (g : u.Grounded) {pt seg : ObjectId}
    (fits : u.Fits Kind.distancePL.signature [pt, seg]) :
    Kind.distancePL.Satisfies [pt, seg] u fun xs => xs = [0] := by
  obtain ⟨isPoint, isSegment⟩ := fits_pair.mp fits
  obtain ⟨p, hp⟩ := exists_position.mpr isPoint
  obtain ⟨l, hl⟩ := g.line isSegment
  obtain ⟨d, hd⟩ : ∃ d, |l.signedDistance p| = d := ⟨_, rfl⟩
  obtain ⟨below, side⟩ : ∃ below, Scalar.lt (l.signedDistance p) (ofInt 0) = below := ⟨_, rfl⟩
  have measured : Kind.distancePL.measured? u [pt, seg] =
      some (.ok [("distance", .number d), ("inverted", .flag below)]) := by
    rw [measured?, offLine, hp, hl, ← hd, ← side]
    rfl
  refine satisfies_of g rfl fits rfl measured (.cons ⟨rfl, rfl⟩ (.cons ⟨rfl, rfl⟩ .nil))
    fun c on known => ?_
  obtain ⟨l', p', hl', hp', values⟩ := on.distancePL
  cases hl.symm.trans hl'
  cases hp.symm.trans hp'
  obtain ⟨first, rest⟩ := List.forall₂_cons.mp known
  have distance : c.resolved.number "distance" = d := Resolved.number_of_get? first
  have inverted : c.resolved.flag "inverted" = below :=
    Resolved.flag_of_get? (List.forall₂_cons.mp rest).1
  have none : l.excess p d below = 0 := by
    rw [← abs_eq_zero, ← side, Exact.abs_excess_measured, hd, sub_self, abs_zero]
  rw [distance, inverted, none] at values
  exact ⟨_, values, rfl⟩

theorem satisfies_radiusLength (g : u.Grounded) {rd : ObjectId}
    (fits : u.Fits Kind.radiusLength.signature [rd]) :
    Kind.radiusLength.Satisfies [rd] u fun xs => xs = [0] := by
  obtain ⟨_, same, isRound⟩ := fits_one.mp fits
  cases same
  obtain ⟨r, hr⟩ := exists_round.mpr isRound
  have measured : Kind.radiusLength.measured? u [rd] =
      some (.ok [("length", .number (u.value r.r))]) := by
    rw [measured?, hr]
    rfl
  refine satisfies_of g rfl fits rfl measured (.cons ⟨rfl, rfl⟩ .nil)
    fun c on known => ?_
  obtain ⟨r', hr', values⟩ := on.radiusLength
  cases hr.symm.trans hr'
  have length : c.resolved.number "length" = u.value r.r :=
    Resolved.number_of_get? (List.forall₂_cons.mp known).1
  rw [length, sub_self] at values
  exact ⟨_, values, rfl⟩

theorem satisfies_lockPoint (g : u.Grounded) {pt : ObjectId}
    (fits : u.Fits Kind.lockPoint.signature [pt]) :
    Kind.lockPoint.Satisfies [pt] u fun xs => xs = [0, 0] := by
  obtain ⟨_, same, isPoint⟩ := fits_one.mp fits
  cases same
  obtain ⟨p, hp⟩ := exists_position.mpr isPoint
  have measured : Kind.lockPoint.measured? u [pt] =
      some (.ok [("x", .number p.x), ("y", .number p.y)]) := by
    rw [measured?, hp]
    rfl
  refine satisfies_of g rfl fits rfl measured (.cons ⟨rfl, rfl⟩ (.cons ⟨rfl, rfl⟩ .nil))
    fun c on known => ?_
  obtain ⟨p', hp', values⟩ := on.lockPoint
  cases hp.symm.trans hp'
  obtain ⟨first, rest⟩ := List.forall₂_cons.mp known
  have x : c.resolved.number "x" = p.x := Resolved.number_of_get? first
  have y : c.resolved.number "y" = p.y :=
    Resolved.number_of_get? (List.forall₂_cons.mp rest).1
  rw [x, y, sub_self, sub_self] at values
  exact ⟨_, values, rfl⟩

theorem satisfies_angle (g : u.Grounded) {seg : ObjectId}
    (fits : u.Fits Kind.angle.signature [seg]) :
    Kind.angle.Satisfies [seg] u fun xs => ∃ n : ℤ, xs = [n * (2 * Real.pi)] := by
  obtain ⟨_, same, isSegment⟩ := fits_one.mp fits
  cases same
  obtain ⟨l, hl⟩ := exists_segment.mpr isSegment
  have measured : Kind.angle.measured? u [seg] = some (.ok
      [("angle", .number (Angle.wrapDegrees (Angle.toDegrees (u.value l.ang))))]) := by
    rw [measured?, angleDegrees, hl]
    rfl
  refine satisfies_of g rfl fits rfl measured (.cons ⟨rfl, rfl⟩ .nil)
    fun c on known => ?_
  obtain ⟨l', hl', values⟩ := on.angle
  cases hl.symm.trans hl'
  have angle : c.resolved.number "angle" =
      Constant.Scale.turnedDegrees.convert
        (Angle.wrapDegrees (Angle.toDegrees (u.value l.ang))) :=
    Resolved.number_of_get? (List.forall₂_cons.mp known).1
  obtain ⟨n, whole⟩ := Exact.toRadians_wrapDegrees (u.value l.ang)
  rw [angle, Exact.convert_wrapDegrees, whole] at values
  refine ⟨_, values, -n, ?_⟩
  push_cast
  ring_nf

theorem satisfies_angleBetween (g : u.Grounded) {seg₁ seg₂ : ObjectId}
    (fits : u.Fits Kind.angleBetween.signature [seg₁, seg₂]) :
    Kind.angleBetween.Satisfies [seg₁, seg₂] u fun xs =>
      ∃ n : ℤ, xs = [n * (2 * Real.pi)] := by
  obtain ⟨isFirst, isSecond⟩ := fits_pair.mp fits
  obtain ⟨l₁, h₁⟩ := exists_segment.mpr isFirst
  obtain ⟨l₂, h₂⟩ := exists_segment.mpr isSecond
  have measured : Kind.angleBetween.measured? u [seg₁, seg₂] = some (.ok [("angle",
      .number (Angle.wrapDegrees (Angle.toDegrees (u.value l₂.ang - u.value l₁.ang))))]) := by
    rw [measured?, relativeAngle, h₁, h₂]
    rfl
  refine satisfies_of g rfl fits rfl measured (.cons ⟨rfl, rfl⟩ .nil)
    fun c on known => ?_
  obtain ⟨l, l', hl, hl', values⟩ := on.angleBetween
  cases h₁.symm.trans hl
  cases h₂.symm.trans hl'
  have angle : c.resolved.number "angle" = Angle.toRadians
      (Angle.wrapDegrees (Angle.toDegrees (u.value l₂.ang - u.value l₁.ang))) :=
    Resolved.number_of_get? (List.forall₂_cons.mp known).1
  obtain ⟨n, whole⟩ := Exact.toRadians_wrapDegrees (u.value l₂.ang - u.value l₁.ang)
  rw [angle, whole] at values
  refine ⟨_, values, -n, ?_⟩
  push_cast
  ring_nf

/-- The ends of a consistent segment are as far apart as it is long. -/
theorem length_of_consistent {seg : ObjectId} {e : Constraint ℝ} {l : Segment} {a b : Vec ℝ}
    (on : e.On .segmentConsistency [seg] u) (consistent : e.residualValues u = .ok [0, 0])
    (hl : u.segment seg = .ok l) (ha : u.position l.a = .ok a) (hb : u.position l.b = .ok b)
    (long : 0 ≤ u.value l.t) : (b.sub a).norm = u.value l.t := by
  obtain ⟨l', a', b', hl', ha', hb', values⟩ := on.segmentConsistency
  cases hl.symm.trans hl'
  cases ha.symm.trans ha'
  cases hb.symm.trans hb'
  rw [consistent] at values
  injection values with values
  simp only [List.cons.injEq, and_true] at values
  have step : b.sub a = (Vec.unit (u.value l.ang)).scale (u.value l.t) := by
    refine Vec.ext ?_ ?_
    · simp only [Vec.sub, Vec.scale, Vec.unit]
      linarith [values.1]
    · simp only [Vec.sub, Vec.scale, Vec.unit]
      linarith [values.2]
  rw [step, Exact.norm_scale_unit long]

/-- The length that is measured is that of the step between the ends, not the parameter. -/
theorem satisfies_segmentLength (g : u.Grounded) {seg : ObjectId}
    (fits : u.Fits Kind.segmentLength.signature [seg]) :
    ∃ l a b, u.segment seg = .ok l ∧ u.position l.a = .ok a ∧ u.position l.b = .ok b ∧
      Kind.segmentLength.Satisfies [seg] u fun xs => xs = [u.value l.t - (b.sub a).norm] ∧
        ∀ e : Constraint ℝ, e.On .segmentConsistency [seg] u →
          e.residualValues u = .ok [0, 0] → 0 ≤ u.value l.t → xs = [0] := by
  obtain ⟨_, same, isSegment⟩ := fits_one.mp fits
  cases same
  obtain ⟨l, hl⟩ := exists_segment.mpr isSegment
  obtain ⟨a, ha⟩ := exists_position.mpr (g.segment hl).1
  obtain ⟨b, hb⟩ := exists_position.mpr (g.segment hl).2
  have apart : u.length seg = .ok (b.sub a).norm :=
    bind_eq_ok.mpr ⟨l, hl, bind_eq_ok.mpr ⟨b, hb, bind_eq_ok.mpr ⟨a, ha, rfl⟩⟩⟩
  have measured : Kind.segmentLength.measured? u [seg] =
      some (.ok [("length", .number (b.sub a).norm)]) := by
    rw [measured?, apart]
    rfl
  refine ⟨l, a, b, hl, ha, hb, ?_⟩
  refine satisfies_of g rfl fits rfl measured (.cons ⟨rfl, rfl⟩ .nil) fun c on known => ?_
  obtain ⟨l', hl', values⟩ := on.segmentLength
  cases hl.symm.trans hl'
  have length : c.resolved.number "length" = (b.sub a).norm :=
    Resolved.number_of_get? (List.forall₂_cons.mp known).1
  rw [length] at values
  refine ⟨_, values, rfl, fun e on' consistent long => ?_⟩
  rw [length_of_consistent on' consistent hl ha hb long, sub_self]

/-- What is left of a radius on the measured side; with other constants it is no less. -/
theorem satisfies_tangentLC (g : u.Grounded) {seg rd : ObjectId}
    (fits : u.Fits Kind.tangentLC.signature [seg, rd]) :
    ∃ l r m, u.line seg = .ok l ∧ u.round rd = .ok r ∧ u.position r.c = .ok m ∧
      Kind.tangentLC.Satisfies [seg, rd] u fun xs => ∃ x, xs = [x] ∧
        |x| = |(|l.signedDistance m| - u.value r.r)| ∧
        (0 ≤ u.value r.r → ∀ d : Constraint ℝ, d.On .tangentLC [seg, rd] u →
          ∃ y, d.residualValues u = .ok [y] ∧ |x| ≤ |y|) := by
  obtain ⟨isSegment, isRound⟩ := fits_pair.mp fits
  obtain ⟨l, hl⟩ := g.line isSegment
  obtain ⟨r, hr⟩ := exists_round.mpr isRound
  obtain ⟨m, hm⟩ := exists_position.mpr (g.round hr)
  have below : centerBelow u seg rd = .ok (Scalar.lt (l.signedDistance m) (ofInt 0)) :=
    bind_eq_ok.mpr ⟨r, hr, bind_eq_ok.mpr ⟨m, hm, bind_eq_ok.mpr ⟨l, hl, rfl⟩⟩⟩
  -- the residual of any constraint on the two, whatever its side
  have residual (d : Constraint ℝ) (on : d.On .tangentLC [seg, rd] u) :
      d.residualValues u = .ok [l.excess m (u.value r.r) (d.resolved.flag "inverted")] := by
    obtain ⟨l', r', m', hl', hr', hm', values⟩ := on.tangentLC
    cases hl.symm.trans hl'
    cases hr.symm.trans hr'
    cases hm.symm.trans hm'
    exact values
  refine ⟨l, r, m, hl, hr, hm, ?_⟩
  refine satisfies_of g rfl fits rfl (measured_tangentLC below) (.cons ⟨rfl, rfl⟩ .nil)
    fun c on known => ?_
  have inverted : c.resolved.flag "inverted" = Scalar.lt (l.signedDistance m) (ofInt 0) :=
    Resolved.flag_of_get? (List.forall₂_cons.mp known).1
  have values := residual c on
  rw [inverted] at values
  exact ⟨_, values, _, rfl, Exact.abs_excess_measured l m _, fun long d on' =>
    ⟨_, residual d on', Exact.abs_excess_le l m long _⟩⟩

/-- As for a line and an arc, for each of the lines. -/
theorem satisfies_fillet (g : u.Grounded) {l₁ l₂ arc : ObjectId}
    (fits : u.Fits Kind.fillet.signature [l₁, l₂, arc]) :
    ∃ k₁ k₂ x m, u.line l₁ = .ok k₁ ∧ u.line l₂ = .ok k₂ ∧ u.arc arc = .ok x ∧
      u.position x.c = .ok m ∧
      Kind.fillet.Satisfies [l₁, l₂, arc] u fun xs => ∃ x₁ x₂, xs = [x₁, x₂] ∧
        |x₁| = |(|k₁.signedDistance m| - u.value x.r)| ∧
        |x₂| = |(|k₂.signedDistance m| - u.value x.r)| ∧
        (0 ≤ u.value x.r → ∀ d : Constraint ℝ, d.On .fillet [l₁, l₂, arc] u →
          ∃ y₁ y₂, d.residualValues u = .ok [y₁, y₂] ∧ |x₁| ≤ |y₁| ∧ |x₂| ≤ |y₂|) := by
  obtain ⟨_, _, _, same, isFirst, isSecond, isArc⟩ := fits_three.mp fits
  cases same
  obtain ⟨k₁, h₁⟩ := g.line isFirst
  obtain ⟨k₂, h₂⟩ := g.line isSecond
  obtain ⟨x, hx⟩ := exists_arc.mpr isArc
  obtain ⟨m, hm⟩ := exists_position.mpr (g.arc hx).2.2
  have below {seg : ObjectId} {k : Line ℝ} (hk : u.line seg = .ok k) :
      centerBelow u seg arc = .ok (Scalar.lt (k.signedDistance m) (ofInt 0)) :=
    bind_eq_ok.mpr ⟨⟨x.c, x.r⟩, round_of_arc hx,
      bind_eq_ok.mpr ⟨m, hm, bind_eq_ok.mpr ⟨k, hk, rfl⟩⟩⟩
  have residual (d : Constraint ℝ) (on : d.On .fillet [l₁, l₂, arc] u) :
      d.residualValues u = .ok [k₁.excess m (u.value x.r) (d.resolved.flag "inverted1"),
        k₂.excess m (u.value x.r) (d.resolved.flag "inverted2")] := by
    obtain ⟨k₁', k₂', x', m', h₁', h₂', hx', hm', values⟩ := on.fillet
    cases h₁.symm.trans h₁'
    cases h₂.symm.trans h₂'
    cases hx.symm.trans hx'
    cases hm.symm.trans hm'
    exact values
  refine ⟨k₁, k₂, x, m, h₁, h₂, hx, hm, ?_⟩
  refine satisfies_of g rfl fits rfl (measured_fillet (below h₁) (below h₂))
    (.cons ⟨rfl, rfl⟩ (.cons ⟨rfl, rfl⟩ .nil)) fun c on known => ?_
  obtain ⟨first, rest⟩ := List.forall₂_cons.mp known
  have inverted1 : c.resolved.flag "inverted1" = Scalar.lt (k₁.signedDistance m) (ofInt 0) :=
    Resolved.flag_of_get? first
  have inverted2 : c.resolved.flag "inverted2" = Scalar.lt (k₂.signedDistance m) (ofInt 0) :=
    Resolved.flag_of_get? (List.forall₂_cons.mp rest).1
  have values := residual c on
  rw [inverted1, inverted2] at values
  exact ⟨_, values, _, _, rfl, Exact.abs_excess_measured k₁ m _, Exact.abs_excess_measured k₂ m _,
    fun long d on' => ⟨_, _, residual d on', Exact.abs_excess_le k₁ m long _,
      Exact.abs_excess_le k₂ m long _⟩⟩

/-- In exact arithmetic every constraint is satisfied by the constants that are measured of its
objects: lengths and places leave nothing, angles no more than whole turns, the length of a segment
what its ends are apart from it, and sides the least there is. -/
theorem satisfied_by_measured (g : u.Grounded) :
    (∀ p₁ p₂, u.Fits Kind.distancePP.signature [p₁, p₂] →
      Kind.distancePP.Satisfies [p₁, p₂] u fun xs => xs = [0]) ∧
    (∀ pt seg, u.Fits Kind.distancePL.signature [pt, seg] →
      Kind.distancePL.Satisfies [pt, seg] u fun xs => xs = [0]) ∧
    (∀ rd, u.Fits Kind.radiusLength.signature [rd] →
      Kind.radiusLength.Satisfies [rd] u fun xs => xs = [0]) ∧
    (∀ pt, u.Fits Kind.lockPoint.signature [pt] →
      Kind.lockPoint.Satisfies [pt] u fun xs => xs = [0, 0]) ∧
    (∀ seg, u.Fits Kind.angle.signature [seg] →
      Kind.angle.Satisfies [seg] u fun xs => ∃ n : ℤ, xs = [n * (2 * Real.pi)]) ∧
    (∀ seg₁ seg₂, u.Fits Kind.angleBetween.signature [seg₁, seg₂] →
      Kind.angleBetween.Satisfies [seg₁, seg₂] u fun xs => ∃ n : ℤ, xs = [n * (2 * Real.pi)]) ∧
    (∀ seg, u.Fits Kind.segmentLength.signature [seg] →
      ∃ l a b, u.segment seg = .ok l ∧ u.position l.a = .ok a ∧ u.position l.b = .ok b ∧
        Kind.segmentLength.Satisfies [seg] u fun xs => xs = [u.value l.t - (b.sub a).norm] ∧
          ∀ e : Constraint ℝ, e.On .segmentConsistency [seg] u →
            e.residualValues u = .ok [0, 0] → 0 ≤ u.value l.t → xs = [0]) ∧
    (∀ seg rd, u.Fits Kind.tangentLC.signature [seg, rd] →
      ∃ l r m, u.line seg = .ok l ∧ u.round rd = .ok r ∧ u.position r.c = .ok m ∧
        Kind.tangentLC.Satisfies [seg, rd] u fun xs => ∃ x, xs = [x] ∧
          |x| = |(|l.signedDistance m| - u.value r.r)| ∧
          (0 ≤ u.value r.r → ∀ d : Constraint ℝ, d.On .tangentLC [seg, rd] u →
            ∃ y, d.residualValues u = .ok [y] ∧ |x| ≤ |y|)) ∧
    ∀ l₁ l₂ arc, u.Fits Kind.fillet.signature [l₁, l₂, arc] →
      ∃ k₁ k₂ x m, u.line l₁ = .ok k₁ ∧ u.line l₂ = .ok k₂ ∧ u.arc arc = .ok x ∧
        u.position x.c = .ok m ∧
        Kind.fillet.Satisfies [l₁, l₂, arc] u fun xs => ∃ x₁ x₂, xs = [x₁, x₂] ∧
          |x₁| = |(|k₁.signedDistance m| - u.value x.r)| ∧
          |x₂| = |(|k₂.signedDistance m| - u.value x.r)| ∧
          (0 ≤ u.value x.r → ∀ d : Constraint ℝ, d.On .fillet [l₁, l₂, arc] u →
            ∃ y₁ y₂, d.residualValues u = .ok [y₁, y₂] ∧ |x₁| ≤ |y₁| ∧ |x₂| ≤ |y₂|) :=
  ⟨fun _ _ => satisfies_distancePP g, fun _ _ => satisfies_distancePL g,
    fun _ => satisfies_radiusLength g, fun _ => satisfies_lockPoint g, fun _ => satisfies_angle g,
    fun _ _ => satisfies_angleBetween g, fun _ => satisfies_segmentLength g,
    fun _ _ => satisfies_tangentLC g, fun _ _ _ => satisfies_fillet g⟩

end Satisfied

theorem satisfied_by_measured_corner : corner.Grounded ∧ ∀ [Written ℝ],
    Kind.distancePP.Satisfies [⟨1⟩, ⟨7⟩] corner (fun xs => xs = [0]) ∧
    Kind.distancePL.Satisfies [⟨7⟩, ⟨6⟩] corner (fun xs => xs = [0]) ∧
    Kind.angleBetween.Satisfies [⟨3⟩, ⟨6⟩] corner (fun xs => ∃ n : ℤ, xs = [n * (2 * Real.pi)]) ∧
    Kind.tangentLC.Satisfies [⟨6⟩, ⟨10⟩] corner fun xs => xs = [0] := by
  have g : corner.Grounded := grounded_drawnCorner.sameShapes ⟨rfl, rfl⟩
  refine ⟨g, fun {_} => ?_⟩
  obtain ⟨points, offLine, -, -, -, between, -, tangent, -⟩ := satisfied_by_measured g
  refine ⟨points _ _ (.cons ⟨_, rfl, rfl⟩ (.cons ⟨_, rfl, rfl⟩ .nil)),
    offLine _ _ (.cons ⟨_, rfl, rfl⟩ (.cons ⟨_, rfl, rfl⟩ .nil)),
    between _ _ (.cons ⟨_, rfl, rfl⟩ (.cons ⟨_, rfl, rfl⟩ .nil)), ?_⟩
  obtain ⟨l, r, m, hl, hr, hm, values, measured, exists_on, least⟩ :=
    tangent ⟨6⟩ ⟨10⟩ (.cons ⟨_, rfl, rfl⟩ (.cons ⟨_, rfl, rfl⟩ .nil))
  refine ⟨values, measured, exists_on, fun c on => ?_⟩
  obtain ⟨xs, known, x, rfl, size, -⟩ := least c on
  have wall : corner.line ⟨6⟩ = .ok (Line.through (Scalar.atan2 1 0) ⟨0, 0⟩) := rfl
  have round : corner.round ⟨10⟩ = .ok ⟨⟨7⟩, ⟨19, 1⟩⟩ := rfl
  have center : corner.position ⟨7⟩ = .ok ⟨1, 1⟩ := rfl
  have radius : corner.value ⟨19, 1⟩ = 1 := rfl
  cases wall.symm.trans hl
  cases round.symm.trans hr
  cases center.symm.trans hm
  have upright : (Scalar.atan2 1 0 : ℝ) = Real.pi / 2 := Complex.arg_I
  rw [radius, Exact.signedDistance_through, upright] at size
  have none : |x| = 0 := by simpa using size
  exact ⟨[x], known, by rw [abs_eq_zero.mp none]⟩

end Kind

end Drafting
