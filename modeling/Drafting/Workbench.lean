import Drafting.Audit

namespace Drafting

open Constant (Raw)

structure NamedConstraint (K : Type) where
  name : String
  constraint : Constraint K

inductive Event where
  | added (kind : ShapeKind) (name : String) (id : ObjectId)
  | moved (name : String)
  | constrained (name : String) (label : String)
  | constantSet (name constant : String)
  | resynced (name : String)
  | removed (name : String)
  | modifiersApplied (count : Nat)
  | loaded (count : Nat)
deriving DecidableEq, Repr

def Event.operation : Event → String
  | .added kind name _ => s!"Add{kind.name}({name})"
  | .moved name => s!"MovePoint({name})"
  | .constrained name _ => s!"Constrain({name})"
  | .constantSet name constant => s!"SetConstant({name}.{constant})"
  | .resynced name => s!"Resync({name})"
  | .removed name => s!"Remove({name})"
  | .modifiersApplied _ => "ApplyModifiers"
  | .loaded _ => "Load"

def Event.outcome : Event → String
  | .added _ _ id => id.text
  | .constrained _ label => label
  | .modifiersApplied count => s!"{count} modifiers"
  | .loaded count => s!"{count} constraints"
  | _ => "Ok"

structure Workbench (K : Type) where
  sketch : Sketch K
  /-- The names of objects, in the order they were given. -/
  names : List (String × ObjectId)
  constraints : List (NamedConstraint K)
  history : List Event
  /-- Whether a constraint is refused if a residual is missing or infinite. -/
  autoCheck : Bool

namespace Workbench

variable {K : Type}

def empty (autoCheck : Bool) : Workbench K := ⟨.empty, [], [], [], autoCheck⟩

/-- An operation. What it did before failing stays. -/
abbrev Action (K α : Type) : Type := ExceptT WorkbenchError (StateM (Workbench K)) α

def objectId (b : Workbench K) (name : String) : Except WorkbenchError ObjectId :=
  match b.names.find? fun n => n.1 == name with
  | some n => .ok n.2
  | none => .error (.objectNotFound name)

def objectName? (b : Workbench K) (id : ObjectId) : Option String :=
  (b.names.find? fun n => n.2 == id).map (·.1)

def named (b : Workbench K) (name : String) : Except WorkbenchError (NamedConstraint K) :=
  match b.constraints.find? fun c => c.name == name with
  | some c => .ok c
  | none => .error (.constraintNotFound name)

def constraint (b : Workbench K) (name : String) : Except WorkbenchError (Constraint K) := do
  pure (← b.named name).constraint

def constraintCount (b : Workbench K) : Nat := b.constraints.length

def isTaken (b : Workbench K) (name : String) : Bool :=
  b.names.any (fun n => n.1 == name) || b.constraints.any fun c => c.name == name

def checkFree (b : Workbench K) (name : String) : Except WorkbenchError Unit :=
  if b.isTaken name then .error (.duplicateName name) else .ok ()

/-- Replaces the first constraint of the name. -/
def replaceFirst (name : String) (f : Constraint K → Constraint K) :
    List (NamedConstraint K) → List (NamedConstraint K)
  | [] => []
  | c :: cs =>
    if c.name == name then { c with constraint := f c.constraint } :: cs
    else c :: replaceFirst name f cs

def ask {α : Type} (f : Workbench K → Except WorkbenchError α) : Action K α := do
  match f (← get) with
  | .ok a => pure a
  | .error e => throw e

def onSketch {α : Type} (m : StateM (Sketch K) α) : Action K α :=
  modifyGet fun b =>
    let (a, s) := m b.sketch
    (a, { b with sketch := s })

def editSketch {ε α : Type} (f : ε → WorkbenchError) (m : Sketch.Edit K ε α) : Action K α := do
  match ← onSketch m.run with
  | .ok a => pure a
  | .error e => throw (f e)

def log (e : Event) : Action K Unit :=
  modify fun b => { b with history := b.history ++ [e] }

def register (name : String) (kind : ShapeKind) (id : ObjectId) : Action K ObjectId := do
  modify fun b => { b with names := b.names ++ [(name, id)] }
  log (.added kind name id)
  pure id

/-- Draws a shape under a name that is free. -/
def draw (name : String) (kind : ShapeKind) (m : StateM (Sketch K) ObjectId) :
    Action K ObjectId := do
  ask (·.checkFree name)
  let id ← onSketch m
  register name kind id

def point (name : String) (v : Vec K) : Action K ObjectId := draw name .point (Sketch.addPoint v)

def circle (name : String) (center : Vec K) (r : K) : Action K ObjectId :=
  draw name .circle (Sketch.addCircle center r)

def ellipse (name : String) (ep1 ep2 : Vec K) (r : K) : Action K ObjectId :=
  draw name .ellipse (Sketch.addEllipse ep1 ep2 r)

def bezier (name : String) (p0 p1 p2 p3 : Vec K) : Action K ObjectId :=
  draw name .bezier (Sketch.addBezier p0 p1 p2 p3)

def nameObject (name : String) (id : ObjectId) : Action K Unit := do
  ask (·.checkFree name)
  let kind ← ask fun b => (b.sketch.kind id).mapError .sketch
  discard (register name kind id)

variable [Scalar K]

def segment (name : String) (start finish : Vec K) : Action K ObjectId :=
  draw name .segment (Sketch.addSegment start finish)

def arc (name : String) (center : Vec K) (r ang1 ang2 : K) : Action K ObjectId :=
  draw name .arc (Sketch.addArc center r ang1 ang2)

def segmentBetween (name a b : String) : Action K ObjectId := do
  ask (·.checkFree name)
  let a ← ask (·.objectId a)
  let b ← ask (·.objectId b)
  let d ← ask fun w => (w.sketch.step a b).mapError .sketch
  let id ← onSketch (Sketch.addSegmentOver a b d)
  register name .segment id

/-- A rectangle of four segments over four shared corners. Corners are named `.p0` to `.p3` after
the rectangle, sides `.s0` to `.s3`; side `i` starts in corner `i`. -/
def rect (name : String) (x y w h : K) : Action K (List ObjectId) := do
  (rectangle x y w h).zipIdx.forM fun (v, i) => discard (point s!"{name}.p{i}" v)
  (List.range 4).mapM fun i =>
    segmentBetween s!"{name}.s{i}" s!"{name}.p{i}" s!"{name}.p{(i + 1) % 4}"

def movePoint (name : String) (v : Vec K) : Action K Unit := do
  let id ← ask (·.objectId name)
  let s ← ask fun b => (b.sketch.setPosition id v).mapError .sketch
  modify fun b => { b with sketch := s }
  log (.moved name)

section Constraints

variable [Written K]

/-- Adds a constraint that was made, unless the check of its residuals refuses it. -/
def push (name : String) (c : Constraint K) : Action K ConstraintId := do
  log (.constrained name c.label)
  let b ← get
  let verdict := Audit.finiteResiduals c b.sketch
  if b.autoCheck && !verdict.passed then
    onSketch (modify c.release)
    throw (.checkFailed verdict.check verdict.detail)
  modify fun b => { b with constraints := b.constraints ++ [⟨name, c⟩] }
  pure c.id

def constrain (name : String) (kind : Kind) (objects : List String) :
    Action K ConstraintId := do
  ask (·.checkFree name)
  let ids ← objects.mapM fun n => ask (·.objectId n)
  let c ← editSketch .constraint (Constraint.create kind ids)
  push name c

def constrainWith (name : String) (kind : Kind) (objects : List String)
    (constants : Table (Raw K)) : Action K ConstraintId := do
  ask (·.checkFree name)
  let ids ← objects.mapM fun n => ask (·.objectId n)
  let c ← editSketch .constraint (Constraint.make kind ids constants .standard)
  push name c

def consistency (name object : String) : Action K ConstraintId := do
  ask (·.checkFree name)
  let id ← ask (·.objectId object)
  match ← editSketch .constraint (Constraint.consistencyFor id) with
  | some c => push name c
  | none => throw (.assertionFailed s!"object \"{object}\" has no consistency constraint")

omit [Scalar K] [Written K] in
def setConstant (name constant : String) (value : Raw K) : Action K Unit := do
  discard (ask (·.named name))
  modify fun b =>
    { b with constraints := replaceFirst name (·.setConstant constant value) b.constraints }
  log (.constantSet name constant)

/-- Measures the constants of a constraint again, where its kind allows that. -/
def resync (name : String) : Action K Unit := do
  let c ← ask (·.constraint name)
  let c ← ask fun b => (c.resync b.sketch).mapError .constraint
  modify fun b => { b with constraints := replaceFirst name (fun _ => c) b.constraints }
  log (.resynced name)

omit [Scalar K] [Written K] in
def remove (name : String) : Action K Unit := do
  let c ← ask (·.constraint name)
  modify fun b =>
    { b with
      constraints := b.constraints.eraseP fun d => d.name == name
      sketch := c.release b.sketch }
  log (.removed name)

omit [Written K] in
/-- Runs every modifier once, in the order of the list. -/
def applyModifiers : Action K Unit := do
  let modifiers := (← get).constraints.filter (·.constraint.kind.isModifier)
  modifiers.forM fun c => editSketch .constraint c.constraint.modify
  log (.modifiersApplied modifiers.length)

/-- The residuals of all constraints, in the order of the list. -/
def residuals (b : Workbench K) : Except WorkbenchError (List (Polynomial K)) := do
  let ps ← b.constraints.mapM fun c => c.constraint.residuals.mapError .constraint
  pure ps.flatten

def residualValues (b : Workbench K) : Except WorkbenchError (List K) := do
  pure ((← b.residuals).map (·.evaluate b.sketch.value))

end Constraints

end Workbench

end Drafting
