import Drafting.Sketch

namespace Drafting.Sketch

variable {K : Type}

def nextConstraint : StateM (Sketch K) ConstraintId :=
  modifyGet fun s => (⟨s.constraintsMade⟩, { s with constraintsMade := s.constraintsMade + 1 })

def addParam (p : Param K) : StateM (Sketch K) Handle :=
  modifyGet fun s => (s.params.next, { s with params := s.params.insert p })

def addValue (x : K) (name : String) : StateM (Sketch K) Handle := addParam ⟨x, name, []⟩

/-- Stores a shape under the next number. -/
def addShape (shape : Shape) : StateM (Sketch K) ObjectId :=
  modifyGet fun s =>
    let id : ObjectId := ⟨s.lastObject + 1⟩
    (id, { s with entities := s.entities ++ [⟨id, shape, none⟩], lastObject := id.val })

def addPoint (v : Vec K) : StateM (Sketch K) ObjectId := do
  let x ← addValue v.x "x"
  let y ← addValue v.y "y"
  addShape (.point ⟨x, y⟩)

variable [Scalar K]

def addSegment (start finish : Vec K) : StateM (Sketch K) ObjectId := do
  let a ← addPoint start
  let b ← addPoint finish
  let d := finish.sub start
  let ang ← addValue d.direction "ang"
  let t ← addValue (Scalar.hypot d.x d.y) "t"
  addShape (.segment ⟨a, b, ang, t⟩)

/-- A segment whose ends are drawn already, a step `d` apart. -/
def addSegmentOver (a b : ObjectId) (d : Vec K) : StateM (Sketch K) ObjectId := do
  let ang ← addValue d.direction "ang"
  let t ← addValue d.norm "t"
  addShape (.segment ⟨a, b, ang, t⟩)

/-- The step between two points of the sketch; the end is looked up first. -/
def step (s : Sketch K) (a b : ObjectId) : Except SketchError (Vec K) := do
  let finish ← s.position b
  let start ← s.position a
  pure (finish.sub start)

def addSegmentBetween (a b : ObjectId) (s : Sketch K) :
    Except SketchError (ObjectId × Sketch K) := do
  let d ← s.step a b
  pure (addSegmentOver a b d s)

omit [Scalar K] in
def addCircle (center : Vec K) (r : K) : StateM (Sketch K) ObjectId := do
  let c ← addPoint center
  let r ← addValue r "r"
  addShape (.circle ⟨c, r⟩)

def onCircle (center : Vec K) (r ang : K) : Vec K :=
  ⟨center.x + r * Scalar.cos ang, center.y + r * Scalar.sin ang⟩

def addArc (center : Vec K) (r ang1 ang2 : K) : StateM (Sketch K) ObjectId := do
  let c ← addPoint center
  let a ← addPoint (onCircle center r ang1)
  let b ← addPoint (onCircle center r ang2)
  let r ← addValue r "r"
  let ang1 ← addValue ang1 "ang1"
  let ang2 ← addValue ang2 "ang2"
  addShape (.arc ⟨a, b, c, r, ang1, ang2⟩)

omit [Scalar K]

def addEllipse (ep1 ep2 : Vec K) (r : K) : StateM (Sketch K) ObjectId := do
  let ep1 ← addPoint ep1
  let ep2 ← addPoint ep2
  let r ← addValue r "r"
  addShape (.ellipse ⟨ep1, ep2, r⟩)

def addBezier (p0 p1 p2 p3 : Vec K) : StateM (Sketch K) ObjectId := do
  let p0 ← addPoint p0
  let p1 ← addPoint p1
  let p2 ← addPoint p2
  let p3 ← addPoint p3
  addShape (.bezier ⟨p0, p1, p2, p3⟩)

end Drafting.Sketch
