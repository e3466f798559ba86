import Drafting.Polynomial

namespace Drafting.Residual

open Coefficient (ofInt)

def var (h : Handle) : Term := ⟨h, .identity⟩

def sq (h : Handle) : Term := ⟨h, .square⟩

def cube (h : Handle) : Term := ⟨h, .cube⟩

def sin (h : Handle) : Term := ⟨h, .sin⟩

def cos (h : Handle) : Term := ⟨h, .cos⟩

section Ring

variable {K : Type} [Coefficient K]

/-- A product of weight `w`. -/
def weighted (w : Int) (terms : List Term) : Monomial K := ⟨ofInt w, terms⟩

def sum (ms : List (Monomial K)) : Polynomial K := ⟨ofInt 0, ms⟩

/-- `p - q` -/
def difference (p q : Handle) : Polynomial K := sum [weighted 1 [var p], weighted (-1) [var q]]

/-- `p - x` for a given number `x`. -/
def offset (p : Handle) (x : K) : Polynomial K := ⟨-x, [weighted 1 [var p]]⟩

def coincident (x1 y1 x2 y2 : Handle) : List (Polynomial K) :=
  [difference x1 x2, difference y1 y2]

/-- The signed distance of `(x, y)` from the line through `(ax, ay)` in direction `ang`. -/
def signedDistance (x y ax ay ang : Handle) : List (Monomial K) :=
  [weighted (-1) [var x, sin ang], weighted 1 [var y, cos ang], weighted 1 [var ax, sin ang],
    weighted (-1) [var ay, cos ang]]

def pointOnLine (x y ax ay ang : Handle) : Polynomial K := sum (signedDistance x y ax ay ang)

def squaredDistance (x1 y1 x2 y2 : Handle) : List (Monomial K) :=
  [weighted 1 [sq x1], weighted 1 [sq x2], weighted (-2) [var x1, var x2], weighted 1 [sq y1],
    weighted 1 [sq y2], weighted (-2) [var y1, var y2]]

/-- `|p - c|² - r²` -/
def pointOnCircle (x y cx cy r : Handle) : Polynomial K :=
  sum (weighted (-1) [sq r] :: squaredDistance x y cx cy)

/-- `|a - p|² - |b - p|²` for `a` at `(x1, y1)`, `p` at `(x2, y2)` and `b` at `(x3, y3)`. -/
def pointInMiddle (x1 y1 x2 y2 x3 y3 : Handle) : Polynomial K :=
  sum [weighted 1 [sq x1], weighted (-2) [var x1, var x2], weighted 1 [sq y1],
    weighted (-2) [var y1, var y2], weighted (-1) [sq x3], weighted 2 [var x3, var x2],
    weighted (-1) [sq y3], weighted 2 [var y3, var y2]]

/-- As far from both ends, and on the line through the first. -/
def symmetry (x1 y1 x2 y2 x3 y3 ang : Handle) : List (Polynomial K) :=
  [pointInMiddle x1 y1 x2 y2 x3 y3, pointOnLine x2 y2 x1 y1 ang]

/-- `|p - q|² - d²` -/
def distancePP (x1 y1 x2 y2 : Handle) (d : K) : Polynomial K :=
  ⟨-d * d, squaredDistance x1 y1 x2 y2⟩

/-- The sign of a side: `-1` on the opposite one. -/
def sideSign (inverted : Bool) : K := if inverted then ofInt (-1) else ofInt 1

/-- The signed distance less `d` on the given side. -/
def distancePL (x y ang ax ay : Handle) (d : K) (inverted : Bool) : Polynomial K :=
  ⟨-sideSign inverted * d, signedDistance x y ax ay ang⟩

def lockPoint (px py : Handle) (x y : K) : List (Polynomial K) := [offset px x, offset py y]

/-- The signed distance of the center less the radius on the given side. -/
def tangent (ang ax ay cx cy r : Handle) (inverted : Bool) : Polynomial K :=
  sum (signedDistance cx cy ax ay ang ++ [⟨-sideSign inverted, [var r]⟩])

/-- `ang2 - ang1 - a` -/
def angleBetween (ang1 ang2 : Handle) (a : K) : Polynomial K :=
  ⟨-a, [weighted 1 [var ang2], weighted (-1) [var ang1]]⟩

/-- `(x1, y1) + t (cos ang, sin ang) - (x2, y2)` -/
def polar (ang t x1 y1 x2 y2 : Handle) : List (Polynomial K) :=
  [sum [weighted 1 [var x1], weighted 1 [cos ang, var t], weighted (-1) [var x2]],
    sum [weighted 1 [var y1], weighted 1 [sin ang, var t], weighted (-1) [var y2]]]

/-- One coordinate of an end of an arc: `center + r f(ang) - end`. -/
def arcEnd (finish center r : Handle) (f : Term) : Polynomial K :=
  sum [weighted (-1) [var finish], weighted 1 [var center], weighted 1 [var r, f]]

def arcConsistency (r ang1 ang2 ax ay bx b_y cx cy : Handle) : List (Polynomial K) :=
  [arcEnd ax cx r (cos ang1), arcEnd ay cy r (sin ang1), arcEnd bx cx r (cos ang2),
    arcEnd b_y cy r (sin ang2)]

/-- One coordinate of a cubic curve at `t` less `p`:
`(1 - t)³ p0 + 3 (1 - t)² t p1 + 3 (1 - t) t² p2 + t³ p3 - p`. -/
def bezier (p t p0 p1 p2 p3 : Handle) : Polynomial K :=
  sum [weighted (-1) [cube t, var p0], weighted 3 [sq t, var p0], weighted (-3) [var t, var p0],
    weighted 1 [var p0], weighted 3 [cube t, var p1], weighted (-6) [sq t, var p1],
    weighted 3 [var t, var p1], weighted (-3) [cube t, var p2], weighted 3 [sq t, var p2],
    weighted 1 [cube t, var p3], weighted (-1) [var p]]

/-- The derivative of one coordinate at `t` less `p`. -/
def bezierFirst (p t p0 p1 p2 p3 : Handle) : Polynomial K :=
  sum [weighted (-3) [var p0, sq t], weighted 6 [var p0, var t], weighted (-3) [var p0],
    weighted 9 [var p1, sq t], weighted (-12) [var p1, var t], weighted 3 [var p1],
    weighted (-9) [var p2, sq t], weighted 6 [var p2, var t], weighted 3 [var p3, sq t],
    weighted (-1) [var p]]

def bezierSecond (p t p0 p1 p2 p3 : Handle) : Polynomial K :=
  sum [weighted (-6) [var p0, var t], weighted 6 [var p0], weighted 18 [var p1, var t],
    weighted (-12) [var p1], weighted (-18) [var p2, var t], weighted 6 [var p2],
    weighted 6 [var p3, var t], weighted (-1) [var p]]

def pointOnBezier (p0x p0y p3x p3y p1x p1y p2x p2y t px py : Handle) : List (Polynomial K) :=
  [bezier px t p0x p1x p2x p3x, bezier py t p0y p1y p2y p3y]

/-- The touching point and the tangent there belong to the curve; the tangent has the direction of
the line, and the point lies on it. -/
def tangentLineBezier (p0x p0y p3x p3y p1x p1y p2x p2y t px py nx ny ang ax ay : Handle) :
    List (Polynomial K) :=
  [bezier px t p0x p1x p2x p3x, bezier py t p0y p1y p2y p3y,
    bezierFirst nx t p0x p1x p2x p3x, bezierFirst ny t p0y p1y p2y p3y,
    sum [weighted (-1) [var ny, cos ang], weighted 1 [var nx, sin ang]],
    pointOnLine px py ax ay ang]

end Ring

/-- On the ellipse with major axis from `e1` to `e2` and minor radius `r`, at the angle `theta`; the
axis has the angle `psi` and half of it the length `l`. -/
def pointOnEllipse {K : Type} [Scalar K] (e1x e1y e2x e2y r theta psi l px py : Handle) :
    List (Polynomial K) :=
  let half (h : Handle) : Monomial K := ⟨ofInt 1 / ofInt 2, [var h]⟩
  [sum [weighted 1 [var e2x], weighted (-1) [var e1x], weighted (-2) [var l, cos psi]],
    sum [weighted 1 [var e2y], weighted (-1) [var e1y], weighted (-2) [var l, sin psi]],
    sum [half e1x, half e2x, weighted 1 [var l, cos theta, cos psi],
      weighted (-1) [var r, sin theta, sin psi], weighted (-1) [var px]],
    sum [half e1y, half e2y, weighted 1 [var l, cos theta, sin psi],
      weighted 1 [var r, sin theta, cos psi], weighted (-1) [var py]]]

end Drafting.Residual
