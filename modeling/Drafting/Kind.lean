import Drafting.Constant

namespace Drafting

open Constant (Definition)

inductive Kind where
  | pCoincident
  | tangentLC
  | pointOnLine
  | pointOnCircle
  | pointOnBezier
  | tangentLineBezier
  | pointOnEllipse
  | pointInMiddle
  | symmetry
  | distancePP
  | distancePL
  | angle
  | vertical
  | horizontal
  | angleBetween
  | perpendicular
  | parallel
  | segmentLength
  | radiusLength
  | polar
  | equalRadius
  | equalLength
  | lockPoint
  | arcConsistency
  | segmentConsistency
  | fillet
  | mirror
deriving DecidableEq, Repr

inductive Arity where
  | exactly (n : Nat)
  /-- A mirror line, then as many sources as targets. -/
  | mirror
deriving DecidableEq, Repr

namespace Arity

def accepts : Arity → Nat → Bool
  | .exactly n, count => count == n
  | .mirror, count => 3 ≤ count && count % 2 == 1

def text : Arity → String
  | .exactly n => toString n
  | .mirror => "an odd number (at least 3) of"

end Arity

namespace Kind

def all : List Kind :=
  [.pCoincident, .tangentLC, .pointOnLine, .pointOnCircle, .pointOnBezier, .tangentLineBezier,
    .pointOnEllipse, .pointInMiddle, .symmetry, .distancePP, .distancePL, .angle, .vertical,
    .horizontal, .angleBetween, .perpendicular, .parallel, .segmentLength, .radiusLength, .polar,
    .equalRadius, .equalLength, .lockPoint, .arcConsistency, .segmentConsistency, .fillet, .mirror]

/-- The name a kind is stored under. -/
def id : Kind → String
  | .pCoincident => "PCoincident"
  | .tangentLC => "TangentLC"
  | .pointOnLine => "PointOnLine"
  | .pointOnCircle => "PointOnCircle"
  | .pointOnBezier => "PointOnBezier"
  | .tangentLineBezier => "TangentLineBezier"
  | .pointOnEllipse => "PointOnEllipse"
  | .pointInMiddle => "PointInMiddle"
  | .symmetry => "Symmetry"
  | .distancePP => "DistancePP"
  | .distancePL => "DistancePL"
  | .angle => "Angle"
  | .vertical => "Vertical"
  | .horizontal => "Horizontal"
  | .angleBetween => "AngleBetween"
  | .perpendicular => "Perpendicular"
  | .parallel => "Parallel"
  | .segmentLength => "SegmentLength"
  | .radiusLength => "RadiusLength"
  | .polar => "Polar"
  | .equalRadius => "EqualRadius"
  | .equalLength => "EqualLength"
  | .lockPoint => "LockPoint"
  | .arcConsistency => "ArcConsistency"
  | .segmentConsistency => "SegmentConsistency"
  | .fillet => "Fillet"
  | .mirror => "Mirror"

def title : Kind → String
  | .pCoincident => "Two Points Coincidence"
  | .tangentLC => "Line & Circle Tangency"
  | .pointOnLine => "Point On Line"
  | .pointOnCircle => "Point On Circle"
  | .pointOnBezier => "Point On Bezier Curve"
  | .tangentLineBezier => "Line & Bezier Tangency"
  | .pointOnEllipse => "Point On Ellipse"
  | .pointInMiddle => "Middle Point"
  | .symmetry => "Symmetry"
  | .distancePP => "Distance Between Two Points"
  | .distancePL => "Distance Between Point And Line"
  | .angle => "Absolute Line Angle"
  | .vertical => "Line Verticality"
  | .horizontal => "Line Horizontality"
  | .angleBetween => "Angle Between Two Lines"
  | .perpendicular => "Perpendicular"
  | .parallel => "Parallel"
  | .segmentLength => "Segment Length"
  | .radiusLength => "Radius Length"
  | .polar => "Polar Coordinate"
  | .equalRadius => "Equal Radius"
  | .equalLength => "Equal Length"
  | .lockPoint => "Lock Point"
  | .arcConsistency => "Arc Consistency"
  | .segmentConsistency => "Segment Consistency"
  | .fillet => "Fillet Between Two Lines"
  | .mirror => "Mirror Objects"

/-- The misspelt name that radius lengths were once stored under. -/
def oldRadiusLength : String := "RaduisLength"

def ofId? (s : String) : Option Kind :=
  if s = oldRadiusLength then some .radiusLength else all.find? fun k => k.id == s

def arity : Kind → Arity
  | .angle | .vertical | .horizontal | .segmentLength | .radiusLength | .lockPoint
  | .arcConsistency | .segmentConsistency => .exactly 1
  | .polar | .fillet => .exactly 3
  | .mirror => .mirror
  | _ => .exactly 2

/-- Modifiers move shapes and have no residuals. -/
def isModifier : Kind → Bool
  | .mirror => true
  | _ => false

/-- Whether the constants can be measured again after the constraint was made. -/
def resyncs : Kind → Bool
  | .angle | .vertical | .horizontal | .perpendicular | .parallel | .segmentLength
  | .lockPoint => true
  | _ => false

def degrees (description : String) (readOnly : Bool) : Definition :=
  ⟨"angle", .number, description, readOnly, .degrees⟩

def length (name description : String) : Definition :=
  ⟨name, .number, description, false, .plain⟩

/-- Which of two sides is meant. -/
def side (name description : String) : Definition :=
  ⟨name, .flag, description, false, .plain⟩

def definitions : Kind → List Definition
  | .tangentLC => [side "inverted" "whether the circle is attached from the opposite side"]
  | .fillet =>
    [side "inverted1" "whether the arc touches the first line from the opposite side",
      side "inverted2" "whether the arc touches the second line from the opposite side"]
  | .distancePP => [length "distance" "the distance between two points"]
  | .distancePL =>
    [length "distance" "the distance between the point and the line",
      side "inverted" "whether the point lies on the opposite side of the line"]
  | .lockPoint => [length "x" "X coordinate", length "y" "Y coordinate"]
  | .angle => [⟨"angle", .number, "line angle", false, .turnedDegrees⟩]
  | .vertical | .horizontal => [degrees "line angle" true]
  | .angleBetween => [degrees "angle between the lines" false]
  | .perpendicular | .parallel => [degrees "angle between the lines" true]
  | .segmentLength => [length "length" "length of the segment"]
  | .radiusLength => [length "length" "length of the radius"]
  | _ => []

/-- Whether a user may change the constants: there are some, and none is read-only. -/
def editable (k : Kind) : Bool :=
  !k.definitions.isEmpty && k.definitions.all fun d => !d.readOnly

end Kind

end Drafting
