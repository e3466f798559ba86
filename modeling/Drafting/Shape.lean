import Drafting.Param

namespace Drafting

/-- The number an object is stored and referred to under. -/
structure ObjectId where
  val : Nat
deriving DecidableEq, Repr

structure ConstraintId where
  val : Nat
deriving DecidableEq, Repr

def ObjectId.text (id : ObjectId) : String := toString id.val

def ConstraintId.text (id : ConstraintId) : String := s!"#{id.val}"

structure Point where
  x : Handle
  y : Handle
deriving DecidableEq, Repr

/-- From `a` in direction `ang` over the length `t` to `b`. -/
structure Segment where
  a : ObjectId
  b : ObjectId
  ang : Handle
  t : Handle
deriving DecidableEq, Repr

structure Circle where
  c : ObjectId
  r : Handle
deriving DecidableEq, Repr

/-- Counter-clockwise around `c` from `a` at `ang1` to `b` at `ang2`. -/
structure Arc where
  a : ObjectId
  b : ObjectId
  c : ObjectId
  r : Handle
  ang1 : Handle
  ang2 : Handle
deriving DecidableEq, Repr

/-- By the ends of the major axis and the minor radius. -/
structure Ellipse where
  ep1 : ObjectId
  ep2 : ObjectId
  r : Handle
deriving DecidableEq, Repr

/-- A cubic curve by its four control points. -/
structure Bezier where
  p0 : ObjectId
  p1 : ObjectId
  p2 : ObjectId
  p3 : ObjectId
deriving DecidableEq, Repr

inductive Shape where
  | point (p : Point)
  | segment (s : Segment)
  | circle (c : Circle)
  | arc (a : Arc)
  | ellipse (e : Ellipse)
  | bezier (b : Bezier)
deriving DecidableEq, Repr

inductive ShapeKind where
  | point
  | segment
  | circle
  | arc
  | ellipse
  | bezier
deriving DecidableEq, Repr

def ShapeKind.name : ShapeKind → String
  | .point => "Point"
  | .segment => "Segment"
  | .circle => "Circle"
  | .arc => "Arc"
  | .ellipse => "Ellipse"
  | .bezier => "Bezier"

/-- What an operation asks an object to be. -/
inductive ShapeClass where
  | only (kind : ShapeKind)
  /-- A circle or an arc. -/
  | round
deriving DecidableEq, Repr

def ShapeClass.text : ShapeClass → String
  | .only .point => "point"
  | .only .segment => "segment"
  | .only .circle => "circle"
  | .only .arc => "arc"
  | .only .ellipse => "ellipse"
  | .only .bezier => "bezier curve"
  | .round => "circle or arc"

/-- The center and radius of a circle or an arc. -/
structure Round where
  c : ObjectId
  r : Handle
deriving DecidableEq, Repr

/-- A part of a shape as it is listed: a parameter of its own, or a point it is built on. -/
inductive Part where
  | own (h : Handle)
  | child (id : ObjectId)
deriving DecidableEq, Repr

namespace Shape

def kind : Shape → ShapeKind
  | .point _ => .point
  | .segment _ => .segment
  | .circle _ => .circle
  | .arc _ => .arc
  | .ellipse _ => .ellipse
  | .bezier _ => .bezier

def point? : Shape → Option Point
  | .point p => some p
  | _ => none

def segment? : Shape → Option Segment
  | .segment s => some s
  | _ => none

def circle? : Shape → Option Circle
  | .circle c => some c
  | _ => none

def arc? : Shape → Option Arc
  | .arc a => some a
  | _ => none

def ellipse? : Shape → Option Ellipse
  | .ellipse e => some e
  | _ => none

def bezier? : Shape → Option Bezier
  | .bezier b => some b
  | _ => none

def round? : Shape → Option Round
  | .circle c => some ⟨c.c, c.r⟩
  | .arc a => some ⟨a.c, a.r⟩
  | _ => none

/-- The order in which the parameters of a shape are listed. A point lists both its own; all others
list the points they are built on by their coordinates. -/
def parts : Shape → List Part
  | .point p => [.own p.x, .own p.y]
  | .segment s => [.child s.a, .child s.b, .own s.ang, .own s.t]
  | .circle c => [.child c.c, .own c.r]
  | .arc a => [.own a.r, .own a.ang1, .own a.ang2, .child a.a, .child a.b, .child a.c]
  | .ellipse e => [.child e.ep1, .child e.ep2, .own e.r]
  | .bezier b => [.child b.p0, .child b.p3, .child b.p1, .child b.p2]

end Shape

end Drafting
