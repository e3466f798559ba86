import Drafting.Proofs.Exact
import Drafting.Proofs.Gathering
import Drafting.Proofs.Making

namespace Drafting

namespace Sketch

variable {K : Type} {s t : Sketch K} {h : Handle} {hs : List Handle} {x : K} {a b : ObjectId}
  {v w : Vec K}

def Holds (s : Sketch K) (h : Handle) (x : K) : Prop := ∃ p, s.param? h = some p ∧ p.value = x

theorem Holds.value [Scalar K] (held : s.Holds h x) : s.value h = x := by
  obtain ⟨p, hp, rfl⟩ := held
  exact value_of_param? hp

theorem Holds.gains (held : s.Holds h x) (g : s.params.Gains hs t.params) : t.Holds h x := by
  obtain ⟨p, hp, same⟩ := held
  have old : h ∉ hs := g.apart (h := h) (by rw [show s.params.get? h = some p from hp]; rfl)
  exact ⟨p, (g.others h old).trans hp, same⟩

theorem Holds.drawn (held : s.Holds h x) (d : Drawn s t) : t.Holds h x := by
  induction d with
  | refl => exact held
  | tail _ step ih =>
    obtain ⟨e, step⟩ := step
    exact ih.gains step.params

theorem holds_addParam (p : Param K) (s : Sketch K) :
    ((addParam p).run s).2.Holds ((addParam p).run s).1 p.value :=
  ⟨p, s.params.get?_insert_next p, rfl⟩

def Placed (s : Sketch K) (a : ObjectId) (v : Vec K) : Prop :=
  ∃ p, s.point a = .ok p ∧ s.Holds p.x v.x ∧ s.Holds p.y v.y

theorem Placed.point (placed : s.Placed a v) : ∃ p, s.point a = .ok p :=
  let ⟨p, hp, _⟩ := placed
  ⟨p, hp⟩

theorem Placed.position [Scalar K] (placed : s.Placed a v) : s.position a = .ok v := by
  obtain ⟨p, hp, hx, hy⟩ := placed
  exact bind_eq_ok.mpr ⟨p, hp, by rw [hx.value, hy.value]; rfl⟩

theorem Placed.drawn (placed : s.Placed a v) (o : s.Ordered) (d : Drawn s t) : t.Placed a v := by
  obtain ⟨p, hp, hx, hy⟩ := placed
  exact ⟨p, d.point o hp, hx.drawn d, hy.drawn d⟩

theorem Draws.found {e : Entity} (d : Draws e s t) (o : s.Ordered) : t.entity? e.id = some e := by
  rw [d.entity? o, if_pos rfl]

theorem placed_addPoint (v : Vec K) (o : s.Ordered) :
    ((addPoint v).run s).2.Placed ((addPoint v).run s).1 v := by
  have x := grows_addParam ⟨v.x, "x", []⟩ s
  have y := grows_addParam ⟨v.y, "y", []⟩ ((addParam ⟨v.x, "x", []⟩).run s).2
  have grown : Grows (Shape.point ⟨_, _⟩).own s _ := x.append y
  have draws := draws_addShape grown (by simp)
  exact ⟨_, draws.newPoint o rfl, (holds_addParam _ s).gains y.params, holds_addParam _ _⟩

variable [Scalar K]

/-- A segment over two points has the direction and the length of the step it was drawn for. -/
theorem drawn_segment (o : s.Ordered) (ha : s.Placed a v) (hb : s.Placed b w) (d : Vec K) :
    ∃ ang len, ((addSegmentOver a b d).run s).2.segment ((addSegmentOver a b d).run s).1 =
        .ok ⟨a, b, ang, len⟩ ∧
      ((addSegmentOver a b d).run s).2.Holds ang d.direction ∧
      ((addSegmentOver a b d).run s).2.Holds len d.norm := by
  have ang := grows_addParam ⟨d.direction, "ang", []⟩ s
  have len := grows_addParam ⟨d.norm, "t", []⟩ ((addParam ⟨d.direction, "ang", []⟩).run s).2
  have grown : Grows (Shape.segment ⟨a, b, _, _⟩).own s _ := ang.append len
  have draws := draws_addShape grown (by simp [ha.point, hb.point])
  refine ⟨_, _, asA_eq_ok_iff.mpr ⟨_, draws.found o, rfl⟩, ?_, holds_addParam _ _⟩
  exact (holds_addParam _ s).gains len.params

/-- An arc has the radius and the angles it was drawn with, and its ends lie there. -/
theorem drawn_arc (center : Vec K) (r ang1 ang2 : K) (o : s.Ordered) :
    ∃ x, ((addArc center r ang1 ang2).run s).2.arc ((addArc center r ang1 ang2).run s).1 = .ok x ∧
      ((addArc center r ang1 ang2).run s).2.Holds x.r r ∧
      ((addArc center r ang1 ang2).run s).2.Holds x.ang1 ang1 ∧
      ((addArc center r ang1 ang2).run s).2.Holds x.ang2 ang2 ∧
      ((addArc center r ang1 ang2).run s).2.Placed x.c center ∧
      ((addArc center r ang1 ang2).run s).2.Placed x.a (onCircle center r ang1) ∧
      ((addArc center r ang1 ang2).run s).2.Placed x.b (onCircle center r ang2) := by
  let s₁ := ((addPoint center).run s).2
  let s₂ := ((addPoint (onCircle center r ang1)).run s₁).2
  let s₃ := ((addPoint (onCircle center r ang2)).run s₂).2
  let s₄ := ((addValue r "r").run s₃).2
  let s₅ := ((addValue ang1 "ang1").run s₄).2
  have o₁ : s₁.Ordered := (drawn_addPoint center o).1.ordered o
  have d₂ : Drawn s₁ s₂ := (drawn_addPoint _ o₁).1
  have o₂ := d₂.ordered o₁
  have d₃ : Drawn s₂ s₃ := (drawn_addPoint _ o₂).1
  have hc := ((placed_addPoint center o).drawn o₁ d₂).drawn o₂ d₃
  have ha := (placed_addPoint (onCircle center r ang1) o₁).drawn o₂ d₃
  have hb := placed_addPoint (onCircle center r ang2) o₂
  have grown := ((grows_addParam ⟨r, "r", []⟩ s₃).append
    (grows_addParam ⟨ang1, "ang1", []⟩ s₄)).append (grows_addParam ⟨ang2, "ang2", []⟩ s₅)
  have points : ∀ id ∈ [((addPoint (onCircle center r ang1)).run s₁).1,
      ((addPoint (onCircle center r ang2)).run s₂).1, ((addPoint center).run s).1],
      ∃ p, s₃.point id = .ok p := by
    simp only [List.forall_mem_cons]
    exact ⟨ha.point, hb.point, hc.point, by simp⟩
  have draws : Draws ⟨⟨s₃.lastObject + 1⟩, .arc ⟨_, _, _, _, _, _⟩, none⟩ s₃ _ :=
    draws_addShape grown points
  have last : Drawn s₃ ((addArc center r ang1 ang2).run s).2 := .single ⟨_, draws⟩
  have o₃ := d₃.ordered o₂
  refine ⟨_, asA_eq_ok_iff.mpr ⟨_, draws.found o₃, rfl⟩, ?_, ?_, ?_, ?_, ?_, ?_⟩
  · exact ((holds_addParam ⟨r, "r", []⟩ s₃).gains (grows_addParam _ s₄).params).gains
      (grows_addParam _ s₅).params
  · exact (holds_addParam ⟨ang1, "ang1", []⟩ s₄).gains (grows_addParam _ s₅).params
  · exact holds_addParam ⟨ang2, "ang2", []⟩ s₅
  · exact hc.drawn o₃ last
  · exact ha.drawn o₃ last
  · exact hb.drawn o₃ last

end Sketch

namespace Constraint

variable {K : Type} [Scalar K] {s : Sketch K} {id : ObjectId} {p q m : Point}

theorem outcome_consistencyFor {found : ShapeKind} (h : s.kind id = .ok found) :
    outcome (consistencyFor id) s =
      match found with
      | .segment => outcome (do
          let c ← make .segmentConsistency [id] .empty .standard
          pure (some { c with isInternal := true })) s
      | .arc => outcome (do
          let c ← make .arcConsistency [id] .empty .standard
          pure (some { c with isInternal := true })) s
      | _ => (.ok none, s) := by
  have asked : outcome (Sketch.ask fun s => orConstraintError (s.kind id)) s = (.ok found, s) := by
    rw [Sketch.outcome_ask, h]
    rfl
  unfold consistencyFor
  rw [outcome_bind_ok asked]
  cases found <;> rfl

/-- A constraint of consistency over a known scope. -/
theorem exists_consistencyFor_segment {l : Segment} (hl : s.segment id = .ok l)
    (hp : s.point l.a = .ok p) (hq : s.point l.b = .ok q) :
    ∃ c, outcome (consistencyFor id) s = (.ok (some c), s.numbered) ∧
      c.kind = .segmentConsistency ∧ c.params = [l.ang, l.t, p.x, p.y, q.x, q.y] := by
  have made := make_of_held (k := .segmentConsistency) .empty .standard rfl rfl
    (Gather.adds_segmentConsistency (s := s.numbered) hl hp hq [])
  have kind := Sketch.kind_eq_ok_iff.mpr (Sketch.exists_segment.mp ⟨l, hl⟩)
  exact ⟨_, (outcome_consistencyFor kind).trans (outcome_bind_ok made _), rfl, rfl⟩

theorem exists_consistencyFor_arc {x : Arc} (hx : s.arc id = .ok x) (hp : s.point x.a = .ok p)
    (hq : s.point x.b = .ok q) (hm : s.point x.c = .ok m) :
    ∃ c, outcome (consistencyFor id) s = (.ok (some c), s.numbered) ∧
      c.kind = .arcConsistency ∧
      c.params = [x.r, x.ang1, x.ang2, p.x, p.y, q.x, q.y, m.x, m.y] := by
  have made := make_of_held (k := .arcConsistency) .empty .standard rfl rfl
    (Gather.adds_arcConsistency (s := s.numbered) hx hp hq hm [])
  have kind := Sketch.kind_eq_ok_iff.mpr (Sketch.exists_arc.mp ⟨x, hx⟩)
  exact ⟨_, (outcome_consistencyFor kind).trans (outcome_bind_ok made _), rfl, rfl⟩

/-- Constraints of consistency are made for segments and arcs and for nothing else. -/
theorem exists_consistencyFor_iff (g : s.Grounded) (id : ObjectId) :
    (∃ c t, outcome (consistencyFor id) s = (.ok (some c), t)) ↔
      s.kind id = .ok .segment ∨ s.kind id = .ok .arc := by
  have made (k : Kind) (residual : k.isModifier = false) (fits : s.Fits k.signature [id]) :
      ∃ c t, outcome (do
        let c ← make k [id] .empty .standard
        pure (some { c with isInternal := true })) s = (.ok (some c), t) := by
    obtain ⟨c, t, h⟩ := (exists_make_iff .empty .standard g residual).mpr fits
    exact ⟨_, t, outcome_bind_ok h _⟩
  constructor
  · intro ⟨c, t, h⟩
    cases found : s.kind id with
    | error e =>
      unfold consistencyFor at h
      obtain ⟨k, u, asked, -⟩ := outcome_bind_eq_ok.mp h
      rw [Sketch.outcome_ask, found] at asked
      cases asked
    | ok k =>
      rw [outcome_consistencyFor found] at h
      cases k with
      | segment => exact .inl rfl
      | arc => exact .inr rfl
      | _ => cases h
  · rintro (h | h)
    · rw [outcome_consistencyFor h]
      exact made .segmentConsistency rfl (Sketch.fits_one.mpr ⟨id, rfl, Sketch.kind_eq_ok_iff.mp h⟩)
    · rw [outcome_consistencyFor h]
      exact made .arcConsistency rfl (Sketch.fits_one.mpr ⟨id, rfl, Sketch.kind_eq_ok_iff.mp h⟩)

end Constraint

namespace Sketch

variable {s t : Sketch ℝ} {id a b : ObjectId} {v w : Vec ℝ}

/-- The constraint that keeps an object in line with its parameters is made, and its residuals, `n`
of them, are all zero, however numbers are written. -/
def Consistent (s : Sketch ℝ) (id : ObjectId) (k : Kind) (n : Nat) : Prop :=
  ∃ c t, outcome (Constraint.consistencyFor id) s = (.ok (some c), t) ∧ c.kind = k ∧
    ∀ [Written ℝ], c.residualValues t = .ok (List.replicate n 0)

/-- Going as far as a step is long in its direction is taking the step. -/
theorem onCircle_direction (v w : Vec ℝ) : onCircle v (w.sub v).norm (w.sub v).direction = w := by
  have x : Real.cos (w.sub v).direction * (w.sub v).norm = w.x - v.x := Exact.cos_direction _
  have y : Real.sin (w.sub v).direction * (w.sub v).norm = w.y - v.y := Exact.sin_direction _
  refine Vec.ext ?_ ?_
  · simp only [onCircle, Exact.cos_eq]
    linear_combination x
  · simp only [onCircle, Exact.sin_eq]
    linear_combination y

/-- The texts of numbers have no part in what is consistent. -/
theorem nonempty_written : Nonempty (Written ℝ) :=
  ⟨⟨fun _ => "", fun _ => "", fun _ _ => "", fun _ _ => "", fun _ => none, fun _ => .ofNat 0,
    fun _ => none⟩⟩

/-- It is made in one way only. -/
theorem consistent_iff {c : Constraint ℝ} {k : Kind} {n : Nat} {P : Prop}
    (made : outcome (Constraint.consistencyFor id) s = (.ok (some c), t)) (kind : c.kind = k)
    (zero : ∀ [Written ℝ], c.residualValues t = .ok (List.replicate n 0) ↔ P) :
    s.Consistent id k n ↔ P := by
  constructor
  · rintro ⟨d, u, made', -, values⟩
    cases made.symm.trans made'
    obtain ⟨written⟩ := nonempty_written
    exact zero.mp values
  · exact fun h => ⟨c, t, made, kind, zero.mpr h⟩

/-- A segment is consistent if it ends where its angle and its length put the end. -/
theorem consistent_segment_iff {l : Segment} (hl : s.segment id = .ok l)
    (ha : s.position l.a = .ok v) (hb : s.position l.b = .ok w) :
    s.Consistent id .segmentConsistency 2 ↔ w = onCircle v (s.value l.t) (s.value l.ang) := by
  obtain ⟨p, hp, placed⟩ := bind_eq_ok.mp ha
  obtain ⟨q, hq, placed'⟩ := bind_eq_ok.mp hb
  cases placed
  cases placed'
  obtain ⟨c, made, kind, params⟩ := Constraint.exists_consistencyFor_segment hl hp hq
  refine consistent_iff made kind fun {_} => ?_
  have values : c.residualValues s.numbered = .ok ((Residual.polar l.ang l.t p.x p.y q.x q.y).map
      (·.evaluate s.value)) := by
    refine bind_eq_ok.mpr ⟨_, ?_, rfl⟩
    rw [Constraint.residuals, kind, params]
    rfl
  rw [values, Exact.evaluate_polar, mul_comm (Real.cos _), mul_comm (Real.sin _)]
  simp only [List.replicate, Except.ok.injEq, List.cons.injEq, and_true, sub_eq_zero, Vec.ext_iff,
    onCircle, Exact.cos_eq, Exact.sin_eq]
  rw [eq_comm (a := s.value q.x), eq_comm (a := s.value q.y)]

/-- An arc is consistent if its ends are where its angles put them. -/
theorem consistent_arc_iff {x : Arc} {c : Vec ℝ} (hx : s.arc id = .ok x)
    (ha : s.position x.a = .ok v) (hb : s.position x.b = .ok w) (hc : s.position x.c = .ok c) :
    s.Consistent id .arcConsistency 4 ↔
      v = onCircle c (s.value x.r) (s.value x.ang1) ∧
        w = onCircle c (s.value x.r) (s.value x.ang2) := by
  obtain ⟨p, hp, placed⟩ := bind_eq_ok.mp ha
  obtain ⟨q, hq, placed'⟩ := bind_eq_ok.mp hb
  obtain ⟨m, hm, center⟩ := bind_eq_ok.mp hc
  cases placed
  cases placed'
  cases center
  obtain ⟨c, made, kind, params⟩ := Constraint.exists_consistencyFor_arc hx hp hq hm
  refine consistent_iff made kind fun {_} => ?_
  have values : c.residualValues s.numbered =
      .ok ((Residual.arcConsistency x.r x.ang1 x.ang2 p.x p.y q.x q.y m.x m.y).map
        (·.evaluate s.value)) := by
    refine bind_eq_ok.mpr ⟨_, ?_, rfl⟩
    rw [Constraint.residuals, kind, params]
    rfl
  rw [values, Exact.evaluate_arcConsistency]
  simp only [List.replicate, Except.ok.injEq, List.cons.injEq, and_true, sub_eq_zero, Vec.ext_iff,
    onCircle, Exact.cos_eq, Exact.sin_eq, and_assoc]
  rw [eq_comm (a := s.value p.x), eq_comm (a := s.value p.y), eq_comm (a := s.value q.x),
    eq_comm (a := s.value q.y)]

/-- A segment from `v` to `w` that is consistent, with its length and a direction within one
turn. -/
structure Straight (s : Sketch ℝ) (id : ObjectId) (v w : Vec ℝ) : Prop where
  consistent : s.Consistent id .segmentConsistency 2
  measured : ∃ l, s.segment id = .ok l ∧ s.position l.a = .ok v ∧ s.position l.b = .ok w ∧
    s.length id = .ok (s.value l.t) ∧ 0 ≤ s.value l.t ∧
    0 ≤ s.value l.ang ∧ s.value l.ang < 2 * Real.pi

theorem straight_of_step {l : Segment} (hl : s.segment id = .ok l) (ha : s.Placed l.a v)
    (hb : s.Placed l.b w) (ang : s.Holds l.ang (w.sub v).direction)
    (len : s.Holds l.t (w.sub v).norm) : s.Straight id v w := by
  have length : s.length id = .ok (s.value l.t) := by
    rw [len.value]
    exact bind_eq_ok.mpr ⟨l, hl, bind_eq_ok.mpr ⟨w, hb.position,
      bind_eq_ok.mpr ⟨v, ha.position, rfl⟩⟩⟩
  have within := Exact.direction_within (w.sub v)
  refine ⟨?_, l, hl, ha.position, hb.position, length, ?_, ?_, ?_⟩
  · refine (consistent_segment_iff hl ha.position hb.position).mpr ?_
    rw [ang.value, len.value]
    exact (onCircle_direction v w).symm
  · rw [len.value]
    exact Exact.norm_nonneg _
  · rw [ang.value]
    exact within.1
  · rw [ang.value]
    exact within.2

theorem straight_addSegmentOver (o : s.Ordered) (ha : s.Placed a v) (hb : s.Placed b w) :
    ((addSegmentOver a b (w.sub v)).run s).2.Straight ((addSegmentOver a b (w.sub v)).run s).1
      v w := by
  obtain ⟨ang, len, hl, hang, hlen⟩ := drawn_segment o ha hb (w.sub v)
  obtain ⟨p, hp⟩ := ha.point
  obtain ⟨q, hq⟩ := hb.point
  have drawn := drawn_addSegmentOver hp hq (w.sub v)
  exact straight_of_step hl (ha.drawn o drawn) (hb.drawn o drawn) hang hlen

theorem straight_addSegment (o : s.Ordered) (v w : Vec ℝ) :
    ((addSegment v w).run s).2.Straight ((addSegment v w).run s).1 v w := by
  have o₁ := (drawn_addPoint v o).1.ordered o
  have d₂ := (drawn_addPoint w o₁).1
  -- in exact arithmetic the two ways to measure the length are one
  exact straight_addSegmentOver (d₂.ordered o₁) ((placed_addPoint v o).drawn o₁ d₂)
    (placed_addPoint w o₁)

theorem consistent_addArc (o : s.Ordered) (center : Vec ℝ) (r ang1 ang2 : ℝ) :
    ((addArc center r ang1 ang2).run s).2.Consistent ((addArc center r ang1 ang2).run s).1
      .arcConsistency 4 := by
  obtain ⟨x, hx, hr, h₁, h₂, hc, ha, hb⟩ := drawn_arc center r ang1 ang2 o
  rw [consistent_arc_iff hx ha.position hb.position hc.position, hr.value, h₁.value, h₂.value]
  exact ⟨rfl, rfl⟩

/-- What is drawn is consistent, in exact arithmetic: segments with ends of their own or over points
that are there, with ends apart or not, and arcs of any radius and any angles. Nothing but segments
and arcs has a constraint of consistency. -/
theorem fresh_consistent (o : s.Ordered) :
    (∀ v w, ((addSegment v w).run s).2.Straight ((addSegment v w).run s).1 v w) ∧
    (∀ a b v w, s.Placed a v → s.Placed b w →
      ∃ id t, addSegmentBetween a b s = .ok (id, t) ∧ t.Straight id v w) ∧
    (∀ center r ang1 ang2, ((addArc center r ang1 ang2).run s).2.Consistent
      ((addArc center r ang1 ang2).run s).1 .arcConsistency 4) ∧
    ∀ id, (∃ c t, outcome (Constraint.consistencyFor id) s = (.ok (some c), t)) ↔
      s.kind id = .ok .segment ∨ s.kind id = .ok .arc := by
  refine ⟨straight_addSegment o, fun a b v w ha hb => ?_, consistent_addArc o,
    Constraint.exists_consistencyFor_iff o.grounded⟩
  have step : s.step a b = .ok (w.sub v) :=
    bind_eq_ok.mpr ⟨w, hb.position, bind_eq_ok.mpr ⟨v, ha.position, rfl⟩⟩
  exact ⟨_, _, bind_eq_ok.mpr ⟨_, step, rfl⟩, straight_addSegmentOver o ha hb⟩

noncomputable def dot : Sketch ℝ := ((addPoint ⟨1, 2⟩).run empty).2

/-- A segment from the point to itself. -/
theorem fresh_consistent_dot : dot.Ordered ∧ dot.Placed ⟨1⟩ ⟨1, 2⟩ ∧
    ∃ id t, addSegmentBetween ⟨1⟩ ⟨1⟩ dot = .ok (id, t) ∧ t.Straight id ⟨1, 2⟩ ⟨1, 2⟩ := by
  have o : dot.Ordered := (drawn_addPoint ⟨1, 2⟩ .empty).1.ordered .empty
  have placed : dot.Placed ⟨1⟩ ⟨1, 2⟩ := placed_addPoint ⟨1, 2⟩ .empty
  obtain ⟨-, between, -⟩ := fresh_consistent o
  exact ⟨o, placed, between ⟨1⟩ ⟨1⟩ ⟨1, 2⟩ ⟨1, 2⟩ placed placed⟩

end Sketch

end Drafting
