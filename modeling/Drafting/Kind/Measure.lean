import Drafting.ConstraintError

namespace Drafting.Kind

open Coefficient (ofInt)
open Constant (Value)

variable {K : Type} [Scalar K]

/-- The signed distance of a point from the line of a segment. -/
def offLine (s : Sketch K) (pt seg : ObjectId) : Except SketchError K := do
  let p ← s.position pt
  let l ← s.line seg
  pure (l.signedDistance p)

/-- Whether the center of a circle or an arc lies on the negative side of a segment's line. -/
def centerBelow (s : Sketch K) (seg round : ObjectId) : Except SketchError Bool := do
  let c ← s.position (← s.round round).c
  let l ← s.line seg
  pure (Scalar.lt (l.signedDistance c) (ofInt 0))

/-- The angle from the first segment to the second, in degrees and within one turn. -/
def relativeAngle (s : Sketch K) (s1 s2 : ObjectId) : Except SketchError K := do
  let a1 := s.value (← s.segment s1).ang
  let a2 := s.value (← s.segment s2).ang
  pure (Angle.wrapDegrees (Angle.toDegrees (a2 - a1)))

def pointDistance (s : Sketch K) (p1 p2 : ObjectId) : Except SketchError K := do
  let a ← s.position p1
  let b ← s.position p2
  pure (a.sub b).norm

def one (name : String) (x : Except SketchError (Value K)) :
    Except SketchError (List (String × Value K)) := do
  pure [(name, ← x)]

def number (x : Except SketchError K) : Except SketchError (Value K) := Value.number <$> x

def flag (x : Except SketchError Bool) : Except SketchError (Value K) := Value.flag <$> x

/-- The measured constants of a kind with constants, if the objects are as many as it takes. -/
def measured? (k : Kind) (s : Sketch K) (objects : List ObjectId) :
    Option (Except SketchError (List (String × Value K))) :=
  match k, objects with
  | .tangentLC, [seg, rd] => some (one "inverted" (flag (centerBelow s seg rd)))
  | .fillet, [l1, l2, arc] => some do
      let side1 ← flag (centerBelow s l1 arc)
      let side2 ← flag (centerBelow s l2 arc)
      pure [("inverted1", side1), ("inverted2", side2)]
  | .distancePP, [p1, p2] => some (one "distance" (number (pointDistance s p1 p2)))
  | .distancePL, [pt, seg] => some do
      let d ← offLine s pt seg
      pure [("distance", .number (Scalar.abs d)), ("inverted", .flag (Scalar.lt d (ofInt 0)))]
  | .lockPoint, [pt] => some do
      let p ← s.position pt
      pure [("x", .number p.x), ("y", .number p.y)]
  | .angle, [seg] => some (one "angle" (number (s.angleDegrees seg)))
  | .vertical, [seg] =>
    some (one "angle" (number (Angle.nearestVertical <$> s.angleDegrees seg)))
  | .horizontal, [seg] =>
    some (one "angle" (number (Angle.nearestHorizontal <$> s.angleDegrees seg)))
  | .angleBetween, [s1, s2] => some (one "angle" (number (relativeAngle s s1 s2)))
  | .perpendicular, [s1, s2] =>
    some (one "angle" (number (Angle.nearestVertical <$> relativeAngle s s1 s2)))
  | .parallel, [s1, s2] =>
    some (one "angle" (number (Angle.nearestHorizontal <$> relativeAngle s s1 s2)))
  | .segmentLength, [seg] => some (one "length" (number (s.length seg)))
  | .radiusLength, [rd] =>
    some (one "length" (number ((fun r => s.value r.r) <$> s.round rd)))
  | _, _ => none

def measure (k : Kind) (s : Sketch K) (objects : List ObjectId) :
    Except ConstraintError (List (String × Value K)) :=
  if k.definitions.isEmpty then .ok []
  else
    match k.measured? s objects with
    | some values => orConstraintError values
    | none => .error (.arity k objects.length)

end Drafting.Kind
