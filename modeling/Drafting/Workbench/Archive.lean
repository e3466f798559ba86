import Drafting.Workbench

namespace Drafting

/-- A record under a name. -/
structure SavedConstraint (K : Type) where
  name : String
  record : Record K

namespace SavedConstraint

variable {K : Type} [Written K]

def toJson [Scalar K] (s : SavedConstraint K) : Json :=
  .fields (("name", .text s.name) :: s.record.recordFields)

/-- A text where there must be one, and a number in range. -/
def isReadable (j : Json) : Bool :=
  j.all Option.isSome fun l => (Written.ofLiteral? (K := K) l).isSome

/-- An object with a name and the members of a record. Every member is read, whether it is used or
not. -/
def ofJson? : Json → Option (SavedConstraint K)
  | .object members => do
    if !isReadable (K := K) (.object members) then none
    let name ← Record.member? members "name"
    let record ← Record.ofMembers? members
    pure ⟨← Record.typeId? (← name), record⟩
  | _ => none

end SavedConstraint

namespace Workbench

variable {K : Type} [Written K]

/-- The deepest nesting that a saved text may have. -/
def maxDepth : Nat := 127

def readSaved? (text : String) : Option (List (SavedConstraint K)) := do
  let j ← Json.read? text
  if maxDepth < j.depth then none
  match j with
  | .array items => items.mapM SavedConstraint.ofJson?
  | _ => none

variable [Scalar K]

def save (b : Workbench K) : String :=
  (Json.array (b.constraints.map fun c =>
    SavedConstraint.toJson ⟨c.name, c.constraint.record⟩)).pretty

/-- Takes the marks of all constraints off the sketch. -/
def stepAside (cs : List (NamedConstraint K)) (s : Sketch K) : Sketch K :=
  cs.foldl (fun s c => s.release c.constraint.managed c.constraint.id) s

/-- Puts the marks of all constraints back, up to the first that is refused. -/
def stepBack (cs : List (NamedConstraint K)) : Sketch.Edit K SketchError Unit :=
  cs.forM fun c => do
    set (← Sketch.ask (·.claim c.constraint.managed c.constraint.id))

def releaseAll (cs : List (NamedConstraint K)) (s : Sketch K) : Sketch K :=
  cs.foldl (fun s c => c.constraint.release s) s

/-- Makes constraints of saved ones until the first that is refused; those made before it are
released again. -/
def readAll (made : List (NamedConstraint K)) :
    List (SavedConstraint K) → Sketch.Edit K ConstraintError (List (NamedConstraint K))
  | [] => pure made
  | saved :: rest => do
    match ← liftM (Constraint.read saved.record).run with
    | .ok c => readAll (made ++ [⟨saved.name, c⟩]) rest
    | .error e =>
      modify (releaseAll made)
      throw e

/-- Replaces every constraint with those of a saved text. Current modifiers step aside first, so
that the text may claim what they manage, and step back if it is refused. -/
def load (text : String) : Action K Unit := do
  match readSaved? (K := K) text with
  | none => throw .serialization
  | some saved =>
    let old := (← get).constraints
    onSketch (modify (stepAside old))
    match ← onSketch (readAll [] saved).run with
    | .ok loaded =>
      modify fun b => { b with constraints := loaded, sketch := releaseAll old b.sketch }
      log (.loaded loaded.length)
    | .error e =>
      editSketch .sketch (stepBack old)
      throw (.constraint e)

end Workbench

end Drafting
