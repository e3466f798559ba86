import Drafting.ConstraintError
import Drafting.Residual

namespace Drafting.Kind

open Constant (Resolved)

variable {K : Type} [Scalar K]

/-- The residuals of a kind over a scope of its size; modifiers have none, whatever their scope. -/
def residuals? (k : Kind) (params : List Handle) (c : Resolved K) :
    Option (List (Polynomial K)) :=
  match k, params with
  | .pCoincident, [x1, y1, x2, y2] => some (Residual.coincident x1 y1 x2 y2)
  | .pointOnLine, [x, y, ax, ay, ang] => some [Residual.pointOnLine x y ax ay ang]
  | .pointOnCircle, [x, y, cx, cy, r] => some [Residual.pointOnCircle x y cx cy r]
  | .pointInMiddle, [x1, y1, x2, y2, x3, y3] => some [Residual.pointInMiddle x1 y1 x2 y2 x3 y3]
  | .symmetry, [x1, y1, x2, y2, x3, y3, ang] => some (Residual.symmetry x1 y1 x2 y2 x3 y3 ang)
  | .distancePP, [x1, y1, x2, y2] =>
    some [Residual.distancePP x1 y1 x2 y2 (c.number "distance")]
  | .distancePL, [x, y, ang, ax, ay] =>
    some [Residual.distancePL x y ang ax ay (c.number "distance") (c.flag "inverted")]
  | .lockPoint, [px, py] => some (Residual.lockPoint px py (c.number "x") (c.number "y"))
  | .tangentLC, [ang, ax, ay, cx, cy, r] =>
    some [Residual.tangent ang ax ay cx cy r (c.flag "inverted")]
  | .fillet, [ang1, ax1, ay1, ang2, ax2, ay2, cx, cy, r] =>
    some [Residual.tangent ang1 ax1 ay1 cx cy r (c.flag "inverted1"),
      Residual.tangent ang2 ax2 ay2 cx cy r (c.flag "inverted2")]
  | .pointOnBezier, [p0x, p0y, p3x, p3y, p1x, p1y, p2x, p2y, t, px, py] =>
    some (Residual.pointOnBezier p0x p0y p3x p3y p1x p1y p2x p2y t px py)
  | .tangentLineBezier,
      [p0x, p0y, p3x, p3y, p1x, p1y, p2x, p2y, t, px, py, nx, ny, ang, ax, ay] =>
    some (Residual.tangentLineBezier p0x p0y p3x p3y p1x p1y p2x p2y t px py nx ny ang ax ay)
  | .pointOnEllipse, [e1x, e1y, e2x, e2y, r, theta, psi, l, px, py] =>
    some (Residual.pointOnEllipse e1x e1y e2x e2y r theta psi l px py)
  | .angle, [ang] => some [Residual.offset ang (c.number "angle")]
  | .vertical, [ang] => some [Residual.offset ang (c.number "angle")]
  | .horizontal, [ang] => some [Residual.offset ang (c.number "angle")]
  | .angleBetween, [ang1, ang2] => some [Residual.angleBetween ang1 ang2 (c.number "angle")]
  | .perpendicular, [ang1, ang2] => some [Residual.angleBetween ang1 ang2 (c.number "angle")]
  | .parallel, [ang1, ang2] => some [Residual.angleBetween ang1 ang2 (c.number "angle")]
  | .segmentLength, [t] => some [Residual.offset t (c.number "length")]
  | .radiusLength, [r] => some [Residual.offset r (c.number "length")]
  | .equalRadius, [r1, r2] => some [Residual.difference r1 r2]
  | .equalLength, [t1, t2] => some [Residual.difference t1 t2]
  | .polar, [ang, t, x1, y1, x2, y2] => some (Residual.polar ang t x1 y1 x2 y2)
  | .segmentConsistency, [ang, t, x1, y1, x2, y2] => some (Residual.polar ang t x1 y1 x2 y2)
  | .arcConsistency, [r, ang1, ang2, ax, ay, bx, b_y, cx, cy] =>
    some (Residual.arcConsistency r ang1 ang2 ax ay bx b_y cx cy)
  | .mirror, _ => some []
  | _, _ => none

/-- The length of the scope that the residuals of a kind are written over. -/
def scopeSize : Kind → Nat
  | .angle | .vertical | .horizontal | .segmentLength | .radiusLength => 1
  | .angleBetween | .perpendicular | .parallel | .equalRadius | .equalLength | .lockPoint => 2
  | .pCoincident | .distancePP => 4
  | .pointOnLine | .pointOnCircle | .distancePL => 5
  | .pointInMiddle | .tangentLC | .polar | .segmentConsistency => 6
  | .symmetry => 7
  | .arcConsistency | .fillet => 9
  | .pointOnEllipse => 10
  | .pointOnBezier => 11
  | .tangentLineBezier => 16
  | .mirror => 0

def residuals (k : Kind) (params : List Handle) (c : Resolved K) :
    Except ConstraintError (List (Polynomial K)) :=
  match k.residuals? params c with
  | some ps => .ok ps
  | none => .error (.scopeMismatch k k.scopeSize params.length)

end Drafting.Kind
