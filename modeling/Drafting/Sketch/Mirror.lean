import Drafting.Sketch

namespace Drafting.Sketch

variable {K : Type} [Scalar K]

/-- A change of a sketch that may stop half way. -/
abbrev Edit (K ε α : Type) : Type := ExceptT ε (StateM (Sketch K)) α

def ask {ε α : Type} (f : Sketch K → Except ε α) : Edit K ε α := do
  match f (← get) with
  | .ok a => pure a
  | .error e => throw e

def copyValue (source target : Handle) : Edit K SketchError Unit :=
  modify fun s => s.setValue target (s.value source)

def writeValue (target : Handle) (x : K) : Edit K SketchError Unit :=
  modify fun s => s.setValue target x

/-- Moves the target to the reflection of the source, and tells where that is. -/
def reflectPoint (r : Reflection K) (source target : ObjectId) :
    Edit K SketchError (Vec K) := do
  let p := r.apply (← ask (·.position source))
  set (← ask (·.setPosition target p))
  pure p

def mirrorSegment (r : Reflection K) (s d : Segment) : Edit K SketchError Unit := do
  let a ← reflectPoint r s.a d.a
  let b ← reflectPoint r s.b d.b
  writeValue d.ang (b.sub a).direction
  copyValue s.t d.t

/-- A reflection turns the sense of rotation around, so the ends change places. -/
def mirrorArc (r : Reflection K) (s d : Arc) : Edit K SketchError Unit := do
  let c ← reflectPoint r s.c d.c
  let a ← reflectPoint r s.b d.a
  let b ← reflectPoint r s.a d.b
  copyValue s.r d.r
  writeValue d.ang1 (a.sub c).direction
  writeValue d.ang2 (b.sub c).direction

/-- Overwrites `target` with the reflection of `source`, which is of the same kind. -/
def mirrorInto (r : Reflection K) (source target : ObjectId) : Edit K SketchError Unit := do
  let src ← ask (·.entity source)
  let dst ← ask (·.entity target)
  match src.shape, dst.shape with
  | .point _, .point _ => discard (reflectPoint r source target)
  | .segment s, .segment d => mirrorSegment r s d
  | .circle s, .circle d =>
    discard (reflectPoint r s.c d.c)
    copyValue s.r d.r
  | .arc s, .arc d => mirrorArc r s d
  | .ellipse s, .ellipse d =>
    discard (reflectPoint r s.ep1 d.ep1)
    discard (reflectPoint r s.ep2 d.ep2)
    copyValue s.r d.r
  | .bezier s, .bezier d =>
    discard (reflectPoint r s.p0 d.p0)
    discard (reflectPoint r s.p1 d.p1)
    discard (reflectPoint r s.p2 d.p2)
    discard (reflectPoint r s.p3 d.p3)
  | s, d => throw (.kindMismatch s.kind d.kind)

end Drafting.Sketch
