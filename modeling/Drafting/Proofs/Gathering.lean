import Drafting.Proofs.Scoping

namespace Drafting

open Coefficient (ofInt)

variable {K : Type}

namespace Sketch

variable {s : Sketch K} {id : ObjectId} {p q m n : Point}

theorem objectParams_point (h : s.point id = .ok p) : s.objectParams id = .ok [p.x, p.y] := by
  obtain ⟨e, he, shape⟩ := point_eq_ok_iff.mp h
  have listed : e.shape.parts.mapM s.partParams = .ok [[p.x], [p.y]] := by
    rw [shape]
    rfl
  exact objectParams_eq_ok he listed

theorem objectParams_arc {x : Arc} (h : s.arc id = .ok x) (ha : s.point x.a = .ok p)
    (hb : s.point x.b = .ok q) (hc : s.point x.c = .ok m) :
    s.objectParams id = .ok [x.r, x.ang1, x.ang2, p.x, p.y, q.x, q.y, m.x, m.y] := by
  obtain ⟨⟨n, shape, owner⟩, he, hv⟩ := asA_eq_ok_iff.mp h
  cases shape <;> cases hv
  have listed : (Shape.arc x).parts.mapM s.partParams =
      .ok [[x.r], [x.ang1], [x.ang2], [p.x, p.y], [q.x, q.y], [m.x, m.y]] := by
    simp only [Shape.parts, List.mapM_cons, List.mapM_nil, partParams_child ha, partParams_child hb,
      partParams_child hc]
    rfl
  exact objectParams_eq_ok he listed

theorem objectParams_ellipse {x : Ellipse} (h : s.ellipse id = .ok x)
    (h₁ : s.point x.ep1 = .ok p) (h₂ : s.point x.ep2 = .ok q) :
    s.objectParams id = .ok [p.x, p.y, q.x, q.y, x.r] := by
  obtain ⟨⟨n, shape, owner⟩, he, hv⟩ := asA_eq_ok_iff.mp h
  cases shape <;> cases hv
  have listed : (Shape.ellipse x).parts.mapM s.partParams =
      .ok [[p.x, p.y], [q.x, q.y], [x.r]] := by
    simp only [Shape.parts, List.mapM_cons, List.mapM_nil, partParams_child h₁, partParams_child h₂]
    rfl
  exact objectParams_eq_ok he listed

structure Controls (s : Sketch K) (id : ObjectId) (x : Bezier) (p q m n : Point) : Prop where
  curve : s.bezier id = .ok x
  first : s.point x.p0 = .ok p
  second : s.point x.p1 = .ok q
  third : s.point x.p2 = .ok m
  last : s.point x.p3 = .ok n

/-- The ends of a curve are listed before the points between them. -/
theorem Controls.objectParams {x : Bezier} (c : s.Controls id x p q m n) :
    s.objectParams id = .ok [p.x, p.y, n.x, n.y, q.x, q.y, m.x, m.y] := by
  obtain ⟨⟨number, shape, owner⟩, he, hv⟩ := asA_eq_ok_iff.mp c.curve
  cases shape <;> cases hv
  have listed : (Shape.bezier x).parts.mapM s.partParams =
      .ok [[p.x, p.y], [n.x, n.y], [q.x, q.y], [m.x, m.y]] := by
    simp only [Shape.parts, List.mapM_cons, List.mapM_nil, partParams_child c.first,
      partParams_child c.second, partParams_child c.third, partParams_child c.last]
    rfl
  exact objectParams_eq_ok he listed

def spot [Scalar K] (s : Sketch K) (p : Point) : Vec K := ⟨s.value p.x, s.value p.y⟩

end Sketch

namespace Gather

section Steps

variable {α β : Type} {s : Sketch K} {id : ObjectId} {a : α} {b : β} {ps qs : List (ScopeParam K)}

/-- Gathering answers `a` and adds `ps`, whatever was gathered before. -/
def Adds (x : Gather K α) (a : α) (ps : List (ScopeParam K)) : Prop :=
  ∀ acc, outcome x acc = (.ok a, acc ++ ps)

theorem Adds.bind {x : Gather K α} {f : α → Gather K β} (h : Adds x a ps)
    (h' : Adds (f a) b qs) : Adds (x >>= f) b (ps ++ qs) := by
  intro acc
  rw [outcome_bind_ok (h acc), h', List.append_assoc]

theorem adds_pure (a : α) : Adds (pure a : Gather K α) a [] := by
  intro acc
  rw [outcome_pure, List.append_nil]

theorem Adds.discard {x : Gather K α} (h : Adds x a ps) : Adds (discard x) () ps := by
  have forgotten : Adds (x >>= fun _ => pure ()) () (ps ++ []) := h.bind (adds_pure ())
  rwa [List.append_nil] at forgotten

theorem adds_look {x : Except SketchError α} (h : x = .ok a) : Adds (K := K) (look x) a [] := by
  subst h
  exact adds_pure a

theorem adds_hold (h : Handle) : Adds (K := K) (hold h) () [.held h] := outcome_hold h

theorem adds_bring (p : Param K) : Adds (bring p) () [.fresh p] := fun _ => rfl

/-- An object is visited for all its parameters, in the order in which it lists them. -/
theorem adds_visit {hs : List Handle} (h : s.objectParams id = .ok hs) :
    Adds (visit s id) () (hs.map .held) := outcome_visit h

theorem adds_point {p : Point} (h : s.point id = .ok p) :
    Adds (visit s id) () ([p.x, p.y].map .held) := adds_visit (Sketch.objectParams_point h)

theorem adds_visitLine {l : Segment} {p : Point} (hl : s.segment id = .ok l)
    (ha : s.point l.a = .ok p) :
    Adds (visitLine s id) () ([l.ang, p.x, p.y].map .held) := by
  apply (adds_look hl).bind
  apply (adds_hold l.ang).bind
  exact adds_point ha

theorem adds_visitRound {r : Round} {p : Point} (hc : s.point r.c = .ok p) :
    Adds (visitRound s r) () ([p.x, p.y, r.r].map .held) := by
  apply (adds_point hc).bind
  exact adds_hold r.r

end Steps

variable [Scalar K] {s : Sketch K} {o : Options K} {a b c : ObjectId} {p q m : Point}
  {l l' : Segment} {r : Round}

omit [Scalar K] in
theorem adds_twoPoints (ha : s.point a = .ok p) (hb : s.point b = .ok q) :
    Adds (Kind.twoPoints s a b) () ([p.x, p.y, q.x, q.y].map .held) := by
  apply (adds_look ha).discard.bind
  apply (adds_look hb).discard.bind
  apply (adds_point ha).bind
  exact adds_point hb

theorem adds_pointOnLine (ha : s.point a = .ok p) (hl : s.segment b = .ok l)
    (hq : s.point l.a = .ok q) :
    Adds (Kind.gather .pointOnLine s o [a, b]) () ([p.x, p.y, q.x, q.y, l.ang].map .held) := by
  apply (adds_look hl).bind
  apply (adds_look ha).discard.bind
  apply (adds_point ha).bind
  apply (adds_point hq).bind
  exact adds_hold l.ang

/-- The same parameters as for a point on a line, but the angle comes first. -/
theorem adds_distancePL (ha : s.point a = .ok p) (hl : s.segment b = .ok l)
    (hq : s.point l.a = .ok q) :
    Adds (Kind.gather .distancePL s o [a, b]) () ([p.x, p.y, l.ang, q.x, q.y].map .held) := by
  apply (adds_look hl).bind
  apply (adds_look ha).discard.bind
  apply (adds_point ha).bind
  apply (adds_hold l.ang).bind
  exact adds_point hq

theorem adds_pointOnCircle (ha : s.point a = .ok p) (hr : s.round b = .ok r)
    (hc : s.point r.c = .ok q) :
    Adds (Kind.gather .pointOnCircle s o [a, b]) () ([p.x, p.y, q.x, q.y, r.r].map .held) := by
  apply (adds_look hr).bind
  apply (adds_look ha).discard.bind
  apply (adds_point ha).bind
  exact adds_visitRound hc

/-- The line comes first here, and of an arc or a circle only center and radius count. -/
theorem adds_tangentLC (hl : s.segment a = .ok l) (hp : s.point l.a = .ok p)
    (hr : s.round b = .ok r) (hc : s.point r.c = .ok q) :
    Adds (Kind.gather .tangentLC s o [a, b]) ()
      ([l.ang, p.x, p.y, q.x, q.y, r.r].map .held) := by
  apply (adds_look hr).bind
  apply (adds_visitLine hl hp).bind
  exact adds_visitRound hc

theorem adds_fillet {x : Arc} (hl : s.segment a = .ok l) (hp : s.point l.a = .ok p)
    (hl' : s.segment b = .ok l') (hq : s.point l'.a = .ok q) (hx : s.arc c = .ok x)
    (hc : s.point x.c = .ok m) :
    Adds (Kind.gather .fillet s o [a, b, c]) ()
      ([l.ang, p.x, p.y, l'.ang, q.x, q.y, m.x, m.y, x.r].map .held) := by
  apply (adds_look hx).bind
  apply (adds_visitLine hl hp).bind
  apply (adds_visitLine hl' hq).bind
  exact adds_visitRound (r := ⟨x.c, x.r⟩) hc

omit [Scalar K] in
/-- The point comes between the ends of the segment. -/
theorem adds_aroundMiddle (ha : s.point a = .ok p) (hl : s.segment b = .ok l)
    (hq : s.point l.a = .ok q) (hm : s.point l.b = .ok m) :
    Adds (Kind.aroundMiddle s a b) l ([q.x, q.y, p.x, p.y, m.x, m.y].map .held) := by
  apply (adds_look hl).bind
  apply (adds_look ha).discard.bind
  apply (adds_point hq).bind
  apply (adds_point ha).bind
  apply (adds_point hm).bind
  exact adds_pure l

theorem adds_symmetry (ha : s.point a = .ok p) (hl : s.segment b = .ok l)
    (hq : s.point l.a = .ok q) (hm : s.point l.b = .ok m) :
    Adds (Kind.gather .symmetry s o [a, b]) ()
      ([q.x, q.y, p.x, p.y, m.x, m.y, l.ang].map .held) := by
  apply (adds_aroundMiddle ha hl hq hm).bind
  exact adds_hold l.ang

theorem adds_pointInMiddle (ha : s.point a = .ok p) (hl : s.segment b = .ok l)
    (hq : s.point l.a = .ok q) (hm : s.point l.b = .ok m) :
    Adds (Kind.gather .pointInMiddle s o [a, b]) () ([q.x, q.y, p.x, p.y, m.x, m.y].map .held) :=
  (adds_aroundMiddle ha hl hq hm).discard

theorem adds_lockPoint (ha : s.point a = .ok p) :
    Adds (Kind.gather .lockPoint s o [a]) () ([p.x, p.y].map .held) := by
  apply (adds_look ha).discard.bind
  exact adds_point ha

theorem adds_radiusLength (hr : s.round a = .ok r) :
    Adds (Kind.gather .radiusLength s o [a]) () ([r.r].map .held) := by
  apply (adds_look hr).bind
  exact adds_hold r.r

omit [Scalar K] in
/-- One parameter of a segment. -/
theorem adds_ofSegment (part : Segment → Handle) (hl : s.segment a = .ok l) :
    Adds (K := K) (look (s.segment a) >>= fun l => hold (part l)) () ([part l].map .held) := by
  apply (adds_look hl).bind
  exact adds_hold (part l)

omit [Scalar K] in
theorem adds_twoAngles (hl : s.segment a = .ok l) (hl' : s.segment b = .ok l') :
    Adds (Kind.twoAngles s a b) () ([l.ang, l'.ang].map .held) := by
  apply (adds_look hl).bind
  apply (adds_look hl').bind
  apply (adds_hold l.ang).bind
  exact adds_hold l'.ang

theorem adds_polar (hl : s.segment a = .ok l) (hp : s.point b = .ok p) (hq : s.point c = .ok q) :
    Adds (Kind.gather .polar s o [a, b, c]) () ([l.ang, l.t, p.x, p.y, q.x, q.y].map .held) := by
  apply (adds_look hl).bind
  apply (adds_look hp).discard.bind
  apply (adds_look hq).discard.bind
  apply (adds_hold l.ang).bind
  apply (adds_hold l.t).bind
  apply (adds_point hp).bind
  exact adds_point hq

/-- As for polar coordinates, with the segment's own ends for the two points. -/
theorem adds_segmentConsistency (hl : s.segment a = .ok l) (hp : s.point l.a = .ok p)
    (hq : s.point l.b = .ok q) :
    Adds (Kind.gather .segmentConsistency s o [a]) ()
      ([l.ang, l.t, p.x, p.y, q.x, q.y].map .held) := by
  apply (adds_look hl).bind
  apply (adds_hold l.ang).bind
  apply (adds_hold l.t).bind
  apply (adds_point hp).bind
  exact adds_point hq

theorem adds_arcConsistency {x : Arc} (hx : s.arc a = .ok x) (hp : s.point x.a = .ok p)
    (hq : s.point x.b = .ok q) (hm : s.point x.c = .ok m) :
    Adds (Kind.gather .arcConsistency s o [a]) ()
      ([x.r, x.ang1, x.ang2, p.x, p.y, q.x, q.y, m.x, m.y].map .held) := by
  apply (adds_look hx).discard.bind
  exact adds_visit (Sketch.objectParams_arc hx hp hq hm)

def curveParam (o : Options K) : Param K :=
  ⟨o.curve.initial, "t", [.above o.curve.lower, .below o.curve.upper]⟩

section Curves

variable {x : Bezier} {q₀ q₁ q₂ q₃ : Point}

/-- The new parameter comes between those of the curve and those of the point. -/
theorem adds_pointOnBezier (ha : s.point a = .ok p) (hb : s.Controls b x q₀ q₁ q₂ q₃) :
    Adds (Kind.gather .pointOnBezier s o [a, b]) ()
      ([q₀.x, q₀.y, q₃.x, q₃.y, q₁.x, q₁.y, q₂.x, q₂.y].map .held ++ .fresh (curveParam o) ::
        [p.x, p.y].map .held) := by
  apply (adds_look ha).discard.bind
  apply (adds_look hb.curve).discard.bind
  apply (adds_visit hb.objectParams).bind
  apply (adds_bring (curveParam o)).bind
  exact adds_point ha

/-- The touching point and the tangent are those of the curve at the start of its parameter. -/
theorem adds_tangentLineBezier {v w : Vec K} (hl : s.segment a = .ok l)
    (hq : s.point l.a = .ok q) (hb : s.Controls b x q₀ q₁ q₂ q₃)
    (touching : Kind.curvePoint (s.spot q₀) (s.spot q₁) (s.spot q₂) (s.spot q₃) o.curve.initial = v)
    (tangent : Kind.curveTangent (s.spot q₀) (s.spot q₁) (s.spot q₂) (s.spot q₃)
      o.curve.initial = w) :
    Adds (Kind.gather .tangentLineBezier s o [a, b]) ()
      ([q₀.x, q₀.y, q₃.x, q₃.y, q₁.x, q₁.y, q₂.x, q₂.y].map .held ++ .fresh (curveParam o) ::
        .fresh ⟨v.x, "px", []⟩ :: .fresh ⟨v.y, "py", []⟩ :: .fresh ⟨w.x, "nx", []⟩ ::
        .fresh ⟨w.y, "ny", []⟩ :: [l.ang, q.x, q.y].map .held) := by
  subst touching tangent
  apply (adds_look hl).bind
  apply (adds_look hb.curve).bind
  apply (adds_look (Sketch.position_of_point hb.first)).bind
  apply (adds_look (Sketch.position_of_point hb.second)).bind
  apply (adds_look (Sketch.position_of_point hb.third)).bind
  apply (adds_look (Sketch.position_of_point hb.last)).bind
  apply (adds_visit hb.objectParams).bind
  apply (adds_bring (curveParam o)).bind
  apply (adds_bring _).bind
  apply (adds_bring _).bind
  apply (adds_bring _).bind
  apply (adds_bring _).bind
  apply (adds_hold l.ang).bind
  exact adds_point hq

end Curves

/-- The axis is that of the ellipse, and the angle the one that belongs to the point. -/
theorem adds_pointOnEllipse {e : Ellipse} {axis : Vec K} {half psi theta : K}
    (ha : s.point a = .ok p) (he : s.ellipse b = .ok e) (h₁ : s.point e.ep1 = .ok q)
    (h₂ : s.point e.ep2 = .ok m) (between : (s.spot m).sub (s.spot q) = axis)
    (length : axis.norm / ofInt 2 = half) (direction : Scalar.atan2 axis.y axis.x = psi)
    (angle : Kind.ellipseAngle (((s.spot q).add (s.spot m)).shrink (ofInt 2)) (s.spot p) psi half
      (s.value e.r) = theta) :
    Adds (Kind.gather .pointOnEllipse s o [a, b]) ()
      ([q.x, q.y, m.x, m.y, e.r].map .held ++ .fresh ⟨theta, "theta", []⟩ ::
        .fresh ⟨psi, "psi", []⟩ :: .fresh ⟨half, "l", [.above (ofInt 0)]⟩ ::
        [p.x, p.y].map .held) := by
  subst between length direction angle
  apply (adds_look he).bind
  apply (adds_look (Sketch.position_of_point h₁)).bind
  apply (adds_look (Sketch.position_of_point h₂)).bind
  apply (adds_look (Sketch.position_of_point ha)).bind
  apply (adds_visit (Sketch.objectParams_ellipse he h₁ h₂)).bind
  apply (adds_bring _).bind
  apply (adds_bring _).bind
  apply (adds_bring _).bind
  exact adds_point ha

end Gather

end Drafting
