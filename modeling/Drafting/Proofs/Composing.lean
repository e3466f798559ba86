import Drafting.Proofs.Doubles
import Drafting.Proofs.Residuals

namespace Drafting

open Coefficient (ofInt)
open Constant (Definition Raw Value)

namespace Constraint

open Sketch

section Parts

variable {K : Type} [Scalar K] [Written K] {c d e : Constraint K} {u : Sketch K} {k : Kind}
  {pt seg seg₁ seg₂ l₁ l₂ arc : ObjectId}

/-- Being symmetric is being in the middle and on the line, in this order. -/
theorem On.symmetry_parts (h : c.On .symmetry [pt, seg] u) (hd : d.On .pointInMiddle [pt, seg] u)
    (he : e.On .pointOnLine [pt, seg] u) :
    ∃ rs qs, d.residuals = .ok rs ∧ e.residuals = .ok qs ∧ c.residuals = .ok (rs ++ qs) := by
  obtain ⟨p, l, a, b, hp, hl, ha, hb, whole⟩ := h.residuals_symmetry
  obtain ⟨p', l', a', b', hp', hl', ha', hb', middle⟩ := hd.residuals_pointInMiddle
  obtain ⟨p'', l'', a'', hp'', hl'', ha'', line⟩ := he.residuals_pointOnLine
  cases hp.symm.trans hp'
  cases hp.symm.trans hp''
  cases hl.symm.trans hl'
  cases hl.symm.trans hl''
  cases ha.symm.trans ha'
  cases ha.symm.trans ha''
  cases hb.symm.trans hb'
  exact ⟨_, _, middle, line, whole⟩

/-- A fillet touches both lines, each on a side of its own. -/
theorem On.fillet_parts (h : c.On .fillet [l₁, l₂, arc] u) (hd : d.On .tangentLC [l₁, arc] u)
    (he : e.On .tangentLC [l₂, arc] u)
    (first : d.resolved.flag "inverted" = c.resolved.flag "inverted1")
    (second : e.resolved.flag "inverted" = c.resolved.flag "inverted2") :
    ∃ rs qs, d.residuals = .ok rs ∧ e.residuals = .ok qs ∧ c.residuals = .ok (rs ++ qs) := by
  obtain ⟨k₁, a₁, k₂, a₂, x, m, h₁, ha₁, h₂, ha₂, hx, hm, whole⟩ := h.residuals_fillet
  obtain ⟨k₁', a₁', r, m', h₁', ha₁', hr, hm', one⟩ := hd.residuals_tangentLC
  obtain ⟨k₂', a₂', r', m'', h₂', ha₂', hr', hm'', other⟩ := he.residuals_tangentLC
  cases h₁.symm.trans h₁'
  cases ha₁.symm.trans ha₁'
  cases h₂.symm.trans h₂'
  cases ha₂.symm.trans ha₂'
  cases (round_of_arc hx).symm.trans hr
  cases (round_of_arc hx).symm.trans hr'
  cases hm.symm.trans hm'
  cases hm.symm.trans hm''
  rw [first] at one
  rw [second] at other
  exact ⟨_, _, one, other, whole⟩

/-- Consistency is the polar kind over a segment and its own ends. -/
theorem On.segmentConsistency_eq_polar {l : Segment} (hl : u.segment seg = .ok l)
    (h : c.On .segmentConsistency [seg] u) (hd : d.On .polar [seg, l.a, l.b] u) :
    ∃ rs, c.residuals = .ok rs ∧ d.residuals = .ok rs := by
  obtain ⟨l', a, b, hl', ha, hb, consistency⟩ := h.residuals_segmentConsistency
  obtain ⟨l'', a', b', hl'', ha', hb', polar⟩ := hd.residuals_polar
  cases hl.symm.trans hl'
  cases hl.symm.trans hl''
  cases ha.symm.trans ha'
  cases hb.symm.trans hb'
  exact ⟨_, consistency, polar⟩

theorem On.standing_eq_angle (hk : k = .vertical ∨ k = .horizontal) (h : c.On k [seg] u)
    (hd : d.On .angle [seg] u) (same : c.resolved.number "angle" = d.resolved.number "angle") :
    ∃ rs, c.residuals = .ok rs ∧ d.residuals = .ok rs := by
  obtain ⟨l, hl, standing⟩ := h.residuals_direction (.inr hk)
  obtain ⟨l', hl', angle⟩ := hd.residuals_direction (.inl rfl)
  cases hl.symm.trans hl'
  rw [same] at standing
  exact ⟨_, standing, angle⟩

theorem On.crossing_eq_angleBetween (hk : k = .perpendicular ∨ k = .parallel)
    (h : c.On k [seg₁, seg₂] u) (hd : d.On .angleBetween [seg₁, seg₂] u)
    (same : c.resolved.number "angle" = d.resolved.number "angle") :
    ∃ rs, c.residuals = .ok rs ∧ d.residuals = .ok rs := by
  obtain ⟨l, l', hl, hl', crossing⟩ := h.residuals_turn (.inr hk)
  obtain ⟨m, m', hm, hm', between⟩ := hd.residuals_turn (.inl rfl)
  cases hl.symm.trans hm
  cases hl'.symm.trans hm'
  rw [same] at crossing
  exact ⟨_, crossing, between⟩

/-- A constraint over parameters of its objects alone, with constants as they are measured. -/
theorem create_of_held {objects : List ObjectId} {hs : List Handle}
    {values : List (String × Value K)} (residual : k.isModifier = false)
    (accepted : k.arity.accepts objects.length)
    (added : Gather.Adds (k.gather u.numbered .standard objects) () (hs.map .held))
    (known : k.definitions.isEmpty = false)
    (measured : k.measured? u.numbered objects = some (.ok values)) :
    ∃ c, outcome (create k objects) u = (.ok c, u.numbered) ∧
      c.constants = .ofList (values.map fun v => (v.1, rounded .standard v.2)) := by
  have made := make_of_held .empty .standard accepted residual (added [])
  refine ⟨⟨⟨u.constraintsMade⟩, k, objects,
    .ofList (values.map fun v => (v.1, rounded .standard v.2)), hs, [], [], [], false, .standard⟩,
    create_eq_ok.mpr ⟨_, made, ?_⟩, rfl⟩
  rw [initConstants, if_neg (by simp [known]), Kind.measure_of_measured known measured]
  rfl

/-- A side that is given is the one that is meant. -/
theorem resolved_side {name description : String} {f : Bool} (hk : c.kind = k)
    (hd : Kind.side name description ∈ k.definitions)
    (given : c.constants.get? name = some (.flag f)) : c.resolved.flag name = f := by
  subst hk
  exact Constant.flag_resolve c.kind.names_rising hd rfl given

/-- The sides that are measured for a fillet are those that are measured for its tangencies. -/
theorem exists_sides (g : u.Grounded) (fits : u.Fits Kind.fillet.signature [l₁, l₂, arc]) :
    ∃ c d e f₁ f₂, outcome (create .fillet [l₁, l₂, arc]) u = (.ok c, u.numbered) ∧
      outcome (create .tangentLC [l₁, arc]) u = (.ok d, u.numbered) ∧
      outcome (create .tangentLC [l₂, arc]) u = (.ok e, u.numbered) ∧
      c.constants.get? "inverted1" = some (.flag f₁) ∧
      d.constants.get? "inverted" = some (.flag f₁) ∧
      c.constants.get? "inverted2" = some (.flag f₂) ∧
      e.constants.get? "inverted" = some (.flag f₂) ∧
      ∃ rs qs, d.residuals = .ok rs ∧ e.residuals = .ok qs ∧ c.residuals = .ok (rs ++ qs) := by
  obtain ⟨_, _, _, same, isFirst, isSecond, isArc⟩ := fits_three.mp fits
  cases same
  obtain ⟨k₁, a₁, -, h₁, ha₁, -⟩ := g.exists_segment isFirst
  obtain ⟨k₂, a₂, -, h₂, ha₂, -⟩ := g.exists_segment isSecond
  obtain ⟨x, hx⟩ := exists_arc.mpr isArc
  obtain ⟨m, hm⟩ := exists_point.mpr (g.arc hx).2.2
  have hr := round_of_arc hx
  obtain ⟨f₁, below₁⟩ := Kind.exists_centerBelow g isFirst isArc.round
  obtain ⟨f₂, below₂⟩ := Kind.exists_centerBelow g isSecond isArc.round
  have keeps := u.keeps_numbered
  have side (f : Bool) : List.Forall₂ Definition.Names Kind.tangentLC.definitions
      [("inverted", (.flag f : Value K))] := .cons ⟨rfl, rfl⟩ .nil
  have sides : List.Forall₂ Definition.Names Kind.fillet.definitions
      [("inverted1", (.flag f₁ : Value K)), ("inverted2", .flag f₂)] :=
    .cons ⟨rfl, rfl⟩ (.cons ⟨rfl, rfl⟩ .nil)
  obtain ⟨c, created, given⟩ := create_of_held (k := .fillet) rfl rfl
    (Gather.adds_fillet (keeps.asA h₁) (keeps.asA ha₁) (keeps.asA h₂) (keeps.asA ha₂)
      (keeps.asA hx) (keeps.asA hm)) rfl
    (Kind.measured_fillet below₁ below₂)
  obtain ⟨d, created₁, given₁⟩ := create_of_held (k := .tangentLC) rfl rfl
    (Gather.adds_tangentLC (keeps.asA h₁) (keeps.asA ha₁) (keeps.asA hr) (keeps.asA hm)) rfl
    (Kind.measured_tangentLC below₁)
  obtain ⟨e, created₂, given₂⟩ := create_of_held (k := .tangentLC) rfl rfl
    (Gather.adds_tangentLC (keeps.asA h₂) (keeps.asA ha₂) (keeps.asA hr) (keeps.asA hm)) rfl
    (Kind.measured_tangentLC below₂)
  have first : c.constants.get? "inverted1" = some (.flag f₁) := by
    rw [given]
    exact Kind.get?_of_names sides (rounded .standard) (.head _)
  have second : c.constants.get? "inverted2" = some (.flag f₂) := by
    rw [given]
    exact Kind.get?_of_names sides (rounded .standard) (.tail _ (.head _))
  have one : d.constants.get? "inverted" = some (.flag f₁) := by
    rw [given₁]
    exact Kind.get?_of_names (side f₁) (rounded .standard) (.head _)
  have other : e.constants.get? "inverted" = some (.flag f₂) := by
    rw [given₂]
    exact Kind.get?_of_names (side f₂) (rounded .standard) (.head _)
  have stays : u.Keeps u := fun _ x hx => ⟨x, hx, rfl⟩
  have on := (Makes.measured created).on g stays
  have on₁ := (Makes.measured created₁).on g stays
  have on₂ := (Makes.measured created₂).on g stays
  have parts := on.fillet_parts on₁ on₂
    ((resolved_side on₁.kind (.head _) one).trans (resolved_side on.kind (.head _) first).symm)
    ((resolved_side on₂.kind (.head _) other).trans
      (resolved_side on.kind (.tail _ (.head _)) second).symm)
  exact ⟨c, d, e, f₁, f₂, created, created₁, created₂, first, one, second, other, parts⟩

/-- Where taking whole turns off changes nothing, an angle that is given means the same to all kinds
that hold a segment to one. -/
theorem resolved_angle {raw : Raw K} (within : Scalar.rem raw.asNumber (ofInt 360) = raw.asNumber)
    (hk : c.kind = .vertical ∨ c.kind = .horizontal) (hd : d.kind = .angle)
    (given : c.constants.get? "angle" = some raw) (given' : d.constants.get? "angle" = some raw) :
    c.resolved.number "angle" = d.resolved.number "angle" := by
  have standing : Kind.degrees "line angle" true ∈ c.kind.definitions := by
    obtain hk | hk := hk
    all_goals
      rw [hk]
      exact .head _
  have turned : ⟨"angle", .number, "line angle", false, .turnedDegrees⟩ ∈ d.kind.definitions := by
    rw [hd]
    exact .head _
  have plain : c.resolved.number "angle" = Angle.toRadians raw.asNumber :=
    Constant.number_resolve c.kind.names_rising standing rfl given
  have reduced : d.resolved.number "angle" =
      Angle.toRadians (Scalar.rem raw.asNumber (ofInt 360)) :=
    Constant.number_resolve d.kind.names_rising turned rfl given'
  rw [plain, reduced, within]

end Parts

variable (u : Sketch Float)

/-- The residuals of composite kinds are those of their parts, and those of special kinds are those
of the general one, wherever the constants agree; the sides of a fillet do as soon as they are
measured, and so do angles of less than a full turn. -/
theorem composites_are_parts (g : u.Grounded) :
    (∀ (c d e : Constraint Float) pt seg, c.On .symmetry [pt, seg] u →
      d.On .pointInMiddle [pt, seg] u → e.On .pointOnLine [pt, seg] u →
      ∃ rs qs, d.residuals = .ok rs ∧ e.residuals = .ok qs ∧ c.residuals = .ok (rs ++ qs)) ∧
    (∀ (c d e : Constraint Float) l₁ l₂ arc, c.On .fillet [l₁, l₂, arc] u →
      d.On .tangentLC [l₁, arc] u → e.On .tangentLC [l₂, arc] u →
      d.resolved.flag "inverted" = c.resolved.flag "inverted1" →
      e.resolved.flag "inverted" = c.resolved.flag "inverted2" →
      ∃ rs qs, d.residuals = .ok rs ∧ e.residuals = .ok qs ∧ c.residuals = .ok (rs ++ qs)) ∧
    (∀ l₁ l₂ arc, u.Fits Kind.fillet.signature [l₁, l₂, arc] →
      ∃ c d e f₁ f₂, outcome (create .fillet [l₁, l₂, arc]) u = (.ok c, u.numbered) ∧
        outcome (create .tangentLC [l₁, arc]) u = (.ok d, u.numbered) ∧
        outcome (create .tangentLC [l₂, arc]) u = (.ok e, u.numbered) ∧
        c.constants.get? "inverted1" = some (.flag f₁) ∧
        d.constants.get? "inverted" = some (.flag f₁) ∧
        c.constants.get? "inverted2" = some (.flag f₂) ∧
        e.constants.get? "inverted" = some (.flag f₂) ∧
        ∃ rs qs, d.residuals = .ok rs ∧ e.residuals = .ok qs ∧ c.residuals = .ok (rs ++ qs)) ∧
    (∀ (c d : Constraint Float) seg l, u.segment seg = .ok l → c.On .segmentConsistency [seg] u →
      d.On .polar [seg, l.a, l.b] u → ∃ rs, c.residuals = .ok rs ∧ d.residuals = .ok rs) ∧
    (∀ (c d : Constraint Float) k seg, k = .vertical ∨ k = .horizontal → c.On k [seg] u →
      d.On .angle [seg] u → c.resolved.number "angle" = d.resolved.number "angle" →
      ∃ rs, c.residuals = .ok rs ∧ d.residuals = .ok rs) ∧
    (∀ (c d : Constraint Float) k seg₁ seg₂, k = .perpendicular ∨ k = .parallel →
      c.On k [seg₁, seg₂] u → d.On .angleBetween [seg₁, seg₂] u →
      c.resolved.number "angle" = d.resolved.number "angle" →
      ∃ rs, c.residuals = .ok rs ∧ d.residuals = .ok rs) ∧
    (∀ (c d : Constraint Float) raw, c.kind = .vertical ∨ c.kind = .horizontal → d.kind = .angle →
      c.constants.get? "angle" = some raw → d.constants.get? "angle" = some raw →
      Scalar.lt (Scalar.abs raw.asNumber) (ofInt 360) = true →
      c.resolved.number "angle" = d.resolved.number "angle") ∧
    ∀ (c : Constraint Float) seg curve, c.On .tangentLineBezier [seg, curve] u →
      ∃ t px py nx ny l a rs, c.auxiliary = [t, px, py, nx, ny] ∧ u.segment seg = .ok l ∧
        u.point l.a = .ok a ∧
        c.residuals = .ok (rs ++ [Residual.pointOnLine px py a.x a.y l.ang]) :=
  ⟨fun _ _ _ _ _ h hd he => h.symmetry_parts hd he,
    fun _ _ _ _ _ _ h hd he first second => h.fillet_parts hd he first second,
    fun _ _ _ fits => exists_sides g fits,
    fun _ _ _ _ hl h hd => h.segmentConsistency_eq_polar hl hd,
    fun _ _ _ _ hk h hd same => h.standing_eq_angle hk hd same,
    fun _ _ _ _ _ hk h hd same => h.crossing_eq_angleBetween hk hd same,
    fun _ _ _ hk hd given given' within =>
      resolved_angle (Double.rem_of_abs_lt within) hk hd given given',
    fun _ _ _ h => h.residuals_tangentLineBezier⟩

def bend : Sketch Float :=
  let floor := ((addSegment ⟨0, 0⟩ ⟨1, 0⟩).run .empty).2
  let wall := ((addSegment ⟨0, 0⟩ ⟨0, 1⟩).run floor).2
  let round := ((addArc ⟨1, 1⟩ 1 0 3).run wall).2
  ((addBezier ⟨0, 0⟩ ⟨1, 0⟩ ⟨1, 1⟩ ⟨0, 1⟩).run round).2

theorem grounded_bend : bend.Grounded := by
  have floor := (drawn_addSegment (K := Float) ⟨0, 0⟩ ⟨1, 0⟩ .empty).ordered .empty
  have wall := (drawn_addSegment (K := Float) ⟨0, 0⟩ ⟨0, 1⟩ floor).ordered floor
  have round := (drawn_addArc (K := Float) ⟨1, 1⟩ 1 0 3 wall).ordered wall
  exact ((drawn_addBezier ⟨0, 0⟩ ⟨1, 0⟩ ⟨1, 1⟩ ⟨0, 1⟩ round).ordered round).grounded

theorem composites_are_parts_bend : bend.Grounded ∧
    (∃ c d e : Constraint Float, ∃ rs qs, c.On .symmetry [⟨7⟩, ⟨3⟩] bend ∧
      d.residuals = .ok rs ∧ e.residuals = .ok qs ∧ c.residuals = .ok (rs ++ qs)) ∧
    (∃ c t, outcome (create .fillet [⟨3⟩, ⟨6⟩, ⟨10⟩]) bend = (.ok c, t)) ∧
    (∃ c d : Constraint Float, ∃ rs, c.On .vertical [⟨6⟩] bend ∧ d.On .angle [⟨6⟩] bend ∧
      c.resolved.number "angle" = d.resolved.number "angle" ∧ c.residuals = .ok rs ∧
      d.residuals = .ok rs) ∧
    ∃ c : Constraint Float, ∃ rs, c.On .tangentLineBezier [⟨3⟩, ⟨15⟩] bend ∧
      ∃ px py, c.residuals = .ok (rs ++ [Residual.pointOnLine px py ⟨1, 1⟩ ⟨2, 1⟩ ⟨5, 1⟩]) := by
  have g := grounded_bend
  have stays : bend.Keeps bend := fun _ e he => ⟨e, he, rfl⟩
  obtain ⟨symmetry, -, fillet, -, standing, -, turned, touching⟩ := composites_are_parts bend g
  refine ⟨g, ?_, ?_, ?_, ?_⟩
  · have fits : bend.Fits [.only .point, .only .segment] [⟨7⟩, ⟨3⟩] :=
      .cons ⟨_, rfl, rfl⟩ (.cons ⟨_, rfl, rfl⟩ .nil)
    obtain ⟨c, on, -⟩ := exists_on .symmetry [⟨7⟩, ⟨3⟩] .empty g rfl fits stays
    obtain ⟨d, on', -⟩ := exists_on .pointInMiddle [⟨7⟩, ⟨3⟩] .empty g rfl fits stays
    obtain ⟨e, on'', -⟩ := exists_on .pointOnLine [⟨7⟩, ⟨3⟩] .empty g rfl fits stays
    obtain ⟨rs, qs, parts⟩ := symmetry c d e _ _ on on' on''
    exact ⟨c, d, e, rs, qs, on, parts⟩
  · obtain ⟨c, d, e, f₁, f₂, created, -⟩ := fillet ⟨3⟩ ⟨6⟩ ⟨10⟩
      (.cons ⟨_, rfl, rfl⟩ (.cons ⟨_, rfl, rfl⟩ (.cons ⟨_, rfl, rfl⟩ .nil)))
    exact ⟨c, _, created⟩
  · have fits : bend.Fits [.only .segment] [⟨6⟩] := .cons ⟨_, rfl, rfl⟩ .nil
    let upright := Table.empty.insert "angle" (Raw.number (90 : Float))
    obtain ⟨c, on, kind, given⟩ := exists_on .vertical [⟨6⟩] upright g rfl fits stays
    obtain ⟨d, on', kind', given'⟩ := exists_on .angle [⟨6⟩] upright g rfl fits stays
    have same := turned c d (.number 90) (.inl kind) kind' (by rw [given]; rfl)
      (by rw [given']; rfl)
      (by decide +kernel)
    obtain ⟨rs, residuals⟩ := standing c d .vertical _ (.inl rfl) on on' same
    exact ⟨c, d, rs, on, on', same, residuals⟩
  · obtain ⟨c, on, -⟩ := exists_on .tangentLineBezier [⟨3⟩, ⟨15⟩] .empty g rfl
      (.cons ⟨_, rfl, rfl⟩ (.cons ⟨_, rfl, rfl⟩ .nil)) stays
    obtain ⟨t, px, py, nx, ny, l, a, rs, -, hl, ha, residuals⟩ := touching c _ _ on
    have floor : bend.segment ⟨3⟩ = .ok ⟨⟨1⟩, ⟨2⟩, ⟨5, 1⟩, ⟨6, 1⟩⟩ := rfl
    have start : bend.point ⟨1⟩ = .ok ⟨⟨1, 1⟩, ⟨2, 1⟩⟩ := rfl
    cases floor.symm.trans hl
    cases start.symm.trans ha
    exact ⟨c, rs, on, px, py, residuals⟩

end Constraint

end Drafting
