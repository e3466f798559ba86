import Drafting.Shape
import Drafting.Store
import Drafting.Plane

namespace Drafting

open Coefficient (ofInt)

/-- An object of a sketch, with the modifier that alone may write it, if there is one. -/
structure Entity where
  id : ObjectId
  shape : Shape
  owner : Option ConstraintId
deriving DecidableEq, Repr

inductive SketchError where
  | unknownObject (id : ObjectId)
  | wrongKind (id : ObjectId) (expected : ShapeClass) (found : ShapeKind)
  | alreadyManaged (id : ObjectId) (owner : ConstraintId)
  | kindMismatch (source target : ShapeKind)
  /-- The mirror line has no length. -/
  | degenerate (line : ObjectId)
deriving DecidableEq, Repr

def SketchError.message : SketchError → String
  | .unknownObject id => s!"object {id.text} does not exist in the sketch"
  | .wrongKind id expected found =>
    s!"object {id.text} is a {found.name}, expected {expected.text}"
  | .alreadyManaged id owner =>
    s!"object {id.text} is already managed by constraint {owner.text}"
  | .kindMismatch source target => s!"cannot mirror a {source.name} onto a {target.name}"
  | .degenerate line => s!"degenerate geometry: mirror line {line.text} has zero length"

structure Sketch (K : Type) where
  params : Store K
  /-- In the order of their numbers. -/
  entities : List Entity
  lastObject : Nat
  /-- How many constraints were numbered so far. -/
  constraintsMade : Nat

namespace Sketch

variable {K : Type}

def empty : Sketch K := ⟨.empty, [], 0, 0⟩

instance : Inhabited (Sketch K) := ⟨empty⟩

def entity? (s : Sketch K) (id : ObjectId) : Option Entity :=
  s.entities.find? fun e => e.id == id

def entity (s : Sketch K) (id : ObjectId) : Except SketchError Entity :=
  match s.entity? id with
  | some e => .ok e
  | none => .error (.unknownObject id)

def contains (s : Sketch K) (id : ObjectId) : Bool := (s.entity? id).isSome

def kind (s : Sketch K) (id : ObjectId) : Except SketchError ShapeKind := do
  pure (← s.entity id).shape.kind

/-- The object as what it is asked to be. -/
def asA {α : Type} (s : Sketch K) (id : ObjectId) (expected : ShapeClass)
    (view : Shape → Option α) : Except SketchError α := do
  let e ← s.entity id
  match view e.shape with
  | some a => pure a
  | none => throw (.wrongKind id expected e.shape.kind)

def point (s : Sketch K) (id : ObjectId) : Except SketchError Point :=
  s.asA id (.only .point) Shape.point?

def segment (s : Sketch K) (id : ObjectId) : Except SketchError Segment :=
  s.asA id (.only .segment) Shape.segment?

def circle (s : Sketch K) (id : ObjectId) : Except SketchError Circle :=
  s.asA id (.only .circle) Shape.circle?

def arc (s : Sketch K) (id : ObjectId) : Except SketchError Arc :=
  s.asA id (.only .arc) Shape.arc?

def ellipse (s : Sketch K) (id : ObjectId) : Except SketchError Ellipse :=
  s.asA id (.only .ellipse) Shape.ellipse?

def bezier (s : Sketch K) (id : ObjectId) : Except SketchError Bezier :=
  s.asA id (.only .bezier) Shape.bezier?

def round (s : Sketch K) (id : ObjectId) : Except SketchError Round :=
  s.asA id .round Shape.round?

def param? (s : Sketch K) (h : Handle) : Option (Param K) := s.params.get? h

/-- Missing if the parameter is gone. -/
def value [Scalar K] (s : Sketch K) (h : Handle) : K :=
  match s.param? h with
  | some p => p.value
  | none => Scalar.nan

def setValue (s : Sketch K) (h : Handle) (x : K) : Sketch K :=
  { s with params := s.params.update h fun p => { p with value := x } }

def removeParam (s : Sketch K) (h : Handle) : Sketch K :=
  { s with params := s.params.erase h }

def removeParams (s : Sketch K) (hs : List Handle) : Sketch K :=
  { s with params := s.params.eraseAll hs }

def paramCount (s : Sketch K) : Nat := s.params.count

def partParams (s : Sketch K) : Part → Except SketchError (List Handle)
  | .own h => .ok [h]
  | .child id => do
    let p ← s.point id
    pure [p.x, p.y]

/-- The parameters of an object, in the order they are listed. -/
def objectParams (s : Sketch K) (id : ObjectId) : Except SketchError (List Handle) := do
  let e ← s.entity id
  let parts ← e.shape.parts.mapM s.partParams
  pure parts.flatten

variable [Scalar K]

def position (s : Sketch K) (id : ObjectId) : Except SketchError (Vec K) := do
  let p ← s.point id
  pure ⟨s.value p.x, s.value p.y⟩

def setPosition (s : Sketch K) (id : ObjectId) (v : Vec K) : Except SketchError (Sketch K) := do
  let p ← s.point id
  pure ((s.setValue p.x v.x).setValue p.y v.y)

/-- The line that carries a segment, by its angle and first end. -/
def line (s : Sketch K) (id : ObjectId) : Except SketchError (Line K) := do
  let g ← s.segment id
  let a ← s.position g.a
  pure (Line.through (s.value g.ang) a)

def angleDegrees (s : Sketch K) (id : ObjectId) : Except SketchError K := do
  let g ← s.segment id
  pure (Angle.wrapDegrees (Angle.toDegrees (s.value g.ang)))

def length (s : Sketch K) (id : ObjectId) : Except SketchError K := do
  let g ← s.segment id
  let b ← s.position g.b
  let a ← s.position g.a
  pure (b.sub a).norm

def reflection (s : Sketch K) (id : ObjectId) : Except SketchError (Reflection K) := do
  let g ← s.segment id
  let a ← s.position g.a
  let b ← s.position g.b
  match Reflection.across? a b with
  | some r => pure r
  | none => throw (.degenerate id)

omit [Scalar K]

def owner (s : Sketch K) (id : ObjectId) : Except SketchError (Option ConstraintId) := do
  pure (← s.entity id).owner

/-- Sets the owner of the listed objects that `which` is true of. -/
def mark (s : Sketch K) (ids : List ObjectId) (which : Entity → Bool)
    (owner : Option ConstraintId) : Sketch K :=
  { s with
    entities := s.entities.map fun e =>
      if ids.contains e.id && which e then { e with owner := owner } else e }

/-- Refuses an object that has an owner, whoever that is. -/
def unowned (s : Sketch K) (id : ObjectId) : Except SketchError Unit := do
  match ← s.owner id with
  | none => pure ()
  | some other => throw (.alreadyManaged id other)

/-- All of the objects become the owner's, or none. -/
def claim (s : Sketch K) (ids : List ObjectId) (owner : ConstraintId) :
    Except SketchError (Sketch K) := do
  ids.forM s.unowned
  pure (s.mark ids (fun _ => true) (some owner))

/-- Takes the owner's mark off the objects. Marks of others stay. -/
def release (s : Sketch K) (ids : List ObjectId) (owner : ConstraintId) : Sketch K :=
  s.mark ids (fun e => e.owner == some owner) none

/-- Takes all objects and parameters away. Numbers stay used. -/
def clear (s : Sketch K) : Sketch K :=
  { s with params := s.params.clear, entities := [] }

end Sketch

end Drafting
