import Drafting.ConstraintError
import Drafting.Options

namespace Drafting

open Coefficient (ofInt)

/-- One parameter of a scope: one of the sketch, or one that is to be added to it. -/
inductive ScopeParam (K : Type) where
  | held (h : Handle)
  | fresh (p : Param K)
deriving DecidableEq, Repr

/-- The gathering of a scope. What was gathered before a failure is kept. -/
abbrev Gather (K α : Type) : Type := ExceptT ConstraintError (StateM (List (ScopeParam K))) α

namespace Gather

variable {K : Type}

def look {α : Type} (x : Except SketchError α) : Gather K α :=
  match x with
  | .ok a => pure a
  | .error e => throw (.ofSketch e)

def hold (h : Handle) : Gather K Unit := modify (· ++ [.held h])

def bring (p : Param K) : Gather K Unit := modify (· ++ [.fresh p])

def visit (s : Sketch K) (id : ObjectId) : Gather K Unit := do
  (← look (s.objectParams id)).forM hold

/-- The place on a curve, kept in the interval of the options. -/
def bringCurveParam (o : Options K) (name : String) : Gather K Unit :=
  bring ⟨o.curve.initial, name, [.above o.curve.lower, .below o.curve.upper]⟩

/-- The direction of a segment and its first end. -/
def visitLine (s : Sketch K) (seg : ObjectId) : Gather K Unit := do
  let g ← look (s.segment seg)
  hold g.ang
  visit s g.a

def visitRound (s : Sketch K) (r : Round) : Gather K Unit := do
  visit s r.c
  hold r.r

end Gather

namespace Kind

open Gather

variable {K : Type} [Scalar K]

/-- The point of a cubic curve at `t`. -/
def curvePoint (p0 p1 p2 p3 : Vec K) (t : K) : Vec K :=
  let u := ofInt 1 - t
  (((p0.scale (u * u * u)).add (p1.scale (ofInt 3 * u * u * t))).add
    (p2.scale (ofInt 3 * u * t * t))).add (p3.scale (t * t * t))

def curveTangent (p0 p1 p2 p3 : Vec K) (t : K) : Vec K :=
  let u := ofInt 1 - t
  (((p1.sub p0).scale (ofInt 3 * u * u)).add ((p2.sub p1).scale (ofInt 6 * u * t))).add
    ((p3.sub p2).scale (ofInt 3 * t * t))

omit [Scalar K] in
def twoPoints (s : Sketch K) (p1 p2 : ObjectId) : Gather K Unit := do
  discard (look (s.point p1))
  discard (look (s.point p2))
  visit s p1
  visit s p2

omit [Scalar K] in
def aroundMiddle (s : Sketch K) (pt seg : ObjectId) : Gather K Segment := do
  let g ← look (s.segment seg)
  discard (look (s.point pt))
  visit s g.a
  visit s pt
  visit s g.b
  pure g

omit [Scalar K] in
def twoAngles (s : Sketch K) (s1 s2 : ObjectId) : Gather K Unit := do
  let g1 ← look (s.segment s1)
  let g2 ← look (s.segment s2)
  hold g1.ang
  hold g2.ang

/-- The touching point and the tangent start where the curve is at the start of its parameter. -/
def tangentToCurve (s : Sketch K) (o : Options K) (seg curve : ObjectId) : Gather K Unit := do
  let g ← look (s.segment seg)
  let b ← look (s.bezier curve)
  let p0 ← look (s.position b.p0)
  let p1 ← look (s.position b.p1)
  let p2 ← look (s.position b.p2)
  let p3 ← look (s.position b.p3)
  let p := curvePoint p0 p1 p2 p3 o.curve.initial
  let n := curveTangent p0 p1 p2 p3 o.curve.initial
  visit s curve
  bringCurveParam o "t"
  bring ⟨p.x, "px", []⟩
  bring ⟨p.y, "py", []⟩
  bring ⟨n.x, "nx", []⟩
  bring ⟨n.y, "ny", []⟩
  hold g.ang
  visit s g.a

/-- The angle on an ellipse that belongs to a point, seen from the center along the axis. -/
def ellipseAngle (center p : Vec K) (psi half minor : K) : K :=
  let d := p.sub center
  let u := d.x * Scalar.cos psi + d.y * Scalar.sin psi
  let v := -d.x * Scalar.sin psi + d.y * Scalar.cos psi
  if Scalar.lt (ofInt 0) half && minor != ofInt 0 then Scalar.atan2 (v / minor) (u / half)
  else ofInt 0

def onEllipse (s : Sketch K) (pt ellipse : ObjectId) : Gather K Unit := do
  let e ← look (s.ellipse ellipse)
  let ep1 ← look (s.position e.ep1)
  let ep2 ← look (s.position e.ep2)
  let p ← look (s.position pt)
  let axis := ep2.sub ep1
  let half := axis.norm / ofInt 2
  let psi := Scalar.atan2 axis.y axis.x
  let theta := ellipseAngle ((ep1.add ep2).shrink (ofInt 2)) p psi half (s.value e.r)
  visit s ellipse
  bring ⟨theta, "theta", []⟩
  bring ⟨psi, "psi", []⟩
  bring ⟨half, "l", [.above (ofInt 0)]⟩
  visit s pt

/-- The scope of a kind over the objects, as many as the kind takes. Modifiers have an empty one. -/
def gather (k : Kind) (s : Sketch K) (o : Options K) (objects : List ObjectId) :
    Gather K Unit := do
  match k, objects with
  | .pCoincident, [p1, p2] => twoPoints s p1 p2
  | .distancePP, [p1, p2] => twoPoints s p1 p2
  | .pointOnLine, [pt, seg] =>
    let g ← look (s.segment seg)
    discard (look (s.point pt))
    visit s pt
    visit s g.a
    hold g.ang
  | .pointOnCircle, [pt, rd] =>
    let r ← look (s.round rd)
    discard (look (s.point pt))
    visit s pt
    visitRound s r
  | .pointInMiddle, [pt, seg] => discard (aroundMiddle s pt seg)
  | .symmetry, [pt, seg] => hold (← aroundMiddle s pt seg).ang
  | .distancePL, [pt, seg] =>
    let g ← look (s.segment seg)
    discard (look (s.point pt))
    visit s pt
    hold g.ang
    visit s g.a
  | .lockPoint, [pt] =>
    discard (look (s.point pt))
    visit s pt
  | .tangentLC, [seg, rd] =>
    let r ← look (s.round rd)
    visitLine s seg
    visitRound s r
  | .fillet, [l1, l2, arc] =>
    let a ← look (s.arc arc)
    visitLine s l1
    visitLine s l2
    visitRound s ⟨a.c, a.r⟩
  | .pointOnBezier, [pt, curve] =>
    discard (look (s.point pt))
    discard (look (s.bezier curve))
    visit s curve
    bringCurveParam o "t"
    visit s pt
  | .tangentLineBezier, [seg, curve] => tangentToCurve s o seg curve
  | .pointOnEllipse, [pt, ellipse] => onEllipse s pt ellipse
  | .angle, [seg] => hold (← look (s.segment seg)).ang
  | .vertical, [seg] => hold (← look (s.segment seg)).ang
  | .horizontal, [seg] => hold (← look (s.segment seg)).ang
  | .angleBetween, [s1, s2] => twoAngles s s1 s2
  | .perpendicular, [s1, s2] => twoAngles s s1 s2
  | .parallel, [s1, s2] => twoAngles s s1 s2
  | .segmentLength, [seg] => hold (← look (s.segment seg)).t
  | .radiusLength, [rd] => hold (← look (s.round rd)).r
  | .equalRadius, [c1, c2] =>
    let r1 ← look (s.round c1)
    let r2 ← look (s.round c2)
    hold r1.r
    hold r2.r
  | .equalLength, [s1, s2] =>
    let g1 ← look (s.segment s1)
    let g2 ← look (s.segment s2)
    hold g1.t
    hold g2.t
  | .polar, [seg, origin, target] =>
    let g ← look (s.segment seg)
    discard (look (s.point origin))
    discard (look (s.point target))
    hold g.ang
    hold g.t
    visit s origin
    visit s target
  | .segmentConsistency, [seg] =>
    let g ← look (s.segment seg)
    hold g.ang
    hold g.t
    visit s g.a
    visit s g.b
  | .arcConsistency, [arc] =>
    discard (look (s.arc arc))
    visit s arc
  | .mirror, _ => pure ()
  | k, os => throw (.arity k os.length)

end Kind

end Drafting
