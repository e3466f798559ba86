import Drafting.Kind.Measure
import Drafting.Kind.Residuals
import Drafting.Kind.Scope
import Drafting.Sketch.Draw
import Drafting.Sketch.Mirror

namespace Drafting

open Constant (Raw Value Resolved)

structure Constraint (K : Type) where
  id : ConstraintId
  kind : Kind
  objects : List ObjectId
  constants : Table (Raw K)
  /-- The scope. -/
  params : List Handle
  /-- Those of the scope that the constraint brought along. -/
  auxiliary : List Handle
  /-- What a modifier reads. -/
  reference : List ObjectId
  /-- What a modifier writes. -/
  managed : List ObjectId
  /-- Kept by the program and not shown to users. -/
  isInternal : Bool
  options : Options K

/-- What a modifier reads and what it writes. Half of the objects after the line are sources, the
other half targets; where one is left over, it is in both. -/
def Kind.split? (k : Kind) (objects : List ObjectId) : Option (List ObjectId × List ObjectId) :=
  if k.isModifier then
    some (objects.take (objects.length / 2 + 1), objects.drop ((objects.length + 1) / 2))
  else none

/-- Overwrites each target with the reflection of its source across the first object of the
reference. -/
def Kind.modify {K : Type} [Scalar K] (k : Kind) (reference managed : List ObjectId) :
    Sketch.Edit K ConstraintError Unit :=
  if k.isModifier then
    match reference with
    | [] => pure ()
    | line :: sources => ExceptT.adapt .ofSketch do
      let r ← Sketch.ask (·.reflection line)
      (sources.zip managed).forM fun (source, target) => Sketch.mirrorInto r source target
  else throw (.notAModifier k)

namespace Constraint

variable {K : Type}

def label (c : Constraint K) : String := s!"{c.kind.id}:{c.id.val}"

/-- The handles of a scope and the new ones among them. -/
structure Scope where
  params : List Handle
  auxiliary : List Handle
deriving DecidableEq, Repr

/-- Adds the new parameters of a scope to the sketch, in their order. -/
def allocate : List (ScopeParam K) → StateM (Sketch K) Scope
  | [] => pure ⟨[], []⟩
  | .held h :: ps => do
    let rest ← allocate ps
    pure { rest with params := h :: rest.params }
  | .fresh p :: ps => do
    let h ← Sketch.addParam p
    let rest ← allocate ps
    pure ⟨h :: rest.params, h :: rest.auxiliary⟩

def release (c : Constraint K) (s : Sketch K) : Sketch K :=
  (s.release c.managed c.id).removeParams c.auxiliary

variable [Scalar K]

/-- A gathered scope with its new parameters added, and why gathering stopped if it did. -/
def gatherScope (kind : Kind) (objects : List ObjectId) (o : Options K) :
    StateM (Sketch K) (Except ConstraintError Unit × Scope) := do
  let (outcome, gathered) := (kind.gather (← get) o objects).run.run []
  let scope ← allocate gathered
  pure (outcome, scope)

/-- The scope of a constraint; one that is not complete is taken back. -/
def takeScope (kind : Kind) (objects : List ObjectId) (o : Options K) :
    Sketch.Edit K ConstraintError Scope := do
  let (outcome, scope) ← liftM (gatherScope kind objects o)
  match outcome with
  | .ok () => pure scope
  | .error e =>
    modify (·.removeParams scope.auxiliary)
    throw e

/-- Marks the targets of a modifier; where that is refused the scope is taken back. -/
def takeTargets (id : ConstraintId) (managed : List ObjectId) (scope : Scope) :
    Sketch.Edit K ConstraintError Unit := do
  match (← get).claim managed id with
  | .ok s => set s
  | .error e =>
    modify (·.removeParams scope.auxiliary)
    throw (.ofSketch e)

/-- Makes a constraint with the given constants. It is numbered as soon as the count of the objects
is right, even if it fails after that. -/
def make (kind : Kind) (objects : List ObjectId) (constants : Table (Raw K)) (o : Options K) :
    Sketch.Edit K ConstraintError (Constraint K) := do
  if !kind.arity.accepts objects.length then
    throw (.arity kind objects.length)
  let id ← liftM (Sketch.nextConstraint (K := K))
  let scope ← takeScope kind objects o
  match kind.split? objects with
  | none =>
    pure ⟨id, kind, objects, constants, scope.params, scope.auxiliary, [], [], false, o⟩
  | some (reference, managed) =>
    takeTargets id managed scope
    pure ⟨id, kind, objects, constants, scope.params, scope.auxiliary, reference, managed, false,
      o⟩

section Constants

variable [Written K]

def resolved (c : Constraint K) : Resolved K := Constant.resolve c.kind.definitions c.constants

omit [Scalar K] [Written K] in
def setConstant (c : Constraint K) (name : String) (value : Raw K) : Constraint K :=
  { c with constants := c.constants.insert name value }

omit [Scalar K] in
/-- A measured number rounded to the places of the options. -/
def rounded (o : Options K) : Value K → Raw K
  | .number x => .text (Written.fixed o.places x)
  | .flag b => .flag b

omit [Scalar K] in
/-- A measured number with all its digits. -/
def unrounded : Value K → Raw K
  | .number x => .text (Written.plain x)
  | .flag b => .flag b

/-- Replaces all constants with measured ones. A kind without constants keeps what it was given. -/
def initConstants (c : Constraint K) (s : Sketch K) : Except ConstraintError (Constraint K) := do
  if c.kind.definitions.isEmpty then
    pure c
  else
    let values ← c.kind.measure s c.objects
    pure { c with constants := .ofList (values.map fun (name, v) => (name, rounded c.options v)) }

/-- Measures the constants again, for the kinds that allow it. Others keep theirs. -/
def resync (c : Constraint K) (s : Sketch K) : Except ConstraintError (Constraint K) := do
  if c.kind.resyncs then
    let values ← c.kind.measure s c.objects
    pure (values.foldl (fun c (name, v) => c.setConstant name (unrounded v)) c)
  else
    pure c

def create (kind : Kind) (objects : List ObjectId) :
    Sketch.Edit K ConstraintError (Constraint K) := do
  let c ← make kind objects .empty .standard
  match c.initConstants (← get) with
  | .ok c => pure c
  | .error e =>
    modify c.release
    throw e

end Constants

/-- The constraint that keeps the ends of a segment or an arc in line with its own parameters; none
for other objects. -/
def consistencyFor (object : ObjectId) :
    Sketch.Edit K ConstraintError (Option (Constraint K)) := do
  let kind ← Sketch.ask fun s => orConstraintError (s.kind object)
  let consistency (k : Kind) := do
    let c ← make k [object] .empty .standard
    pure (some { c with isInternal := true })
  match kind with
  | .segment => consistency .segmentConsistency
  | .arc => consistency .arcConsistency
  | _ => pure none

def residuals [Written K] (c : Constraint K) : Except ConstraintError (List (Polynomial K)) :=
  c.kind.residuals c.params c.resolved

def residualValues [Written K] (c : Constraint K) (s : Sketch K) :
    Except ConstraintError (List K) := do
  pure ((← c.residuals).map (·.evaluate s.value))

def modify (c : Constraint K) : Sketch.Edit K ConstraintError Unit :=
  c.kind.modify c.reference c.managed

end Constraint

end Drafting
