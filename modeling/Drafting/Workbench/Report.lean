import Drafting.Workbench.Assertion

namespace Drafting

open Constant (Raw)

structure ObjectEntry where
  id : ObjectId
  name : Option String
  kind : ShapeKind
  owner : Option String

structure ConstraintEntry (K : Type) where
  index : Nat
  name : String
  label : String
  objects : List String
  constants : List (String × String)
  paramCount : Nat
  residualCount : Nat
  /-- None if the residuals cannot be had. -/
  worst : Option K
  isModifier : Bool
  isInternal : Bool

structure Report (K : Type) where
  objects : List ObjectEntry
  constraints : List (ConstraintEntry K)
  paramCount : Nat
  verdicts : List (Verdict K)
  errors : List (String × String)

namespace Report

variable {K : Type} [Scalar K] [Written K]

omit [Scalar K] in
def rawText : Raw K → String
  | .text s => s
  | .number x => Written.plain x
  | .flag b => toString b

def ownerName (b : Workbench K) (id : ConstraintId) : String :=
  match b.constraints.find? fun c => c.constraint.id == id with
  | some c => c.name
  | none => id.text

def objectEntry (b : Workbench K) (e : Entity) : ObjectEntry :=
  ⟨e.id, b.objectName? e.id, e.shape.kind, e.owner.map (ownerName b)⟩

def constraintEntry (b : Workbench K) (index : Nat) (c : NamedConstraint K) :
    ConstraintEntry K :=
  let residuals := (c.constraint.residualValues b.sketch).toOption
  ⟨index, c.name, c.constraint.label,
    c.constraint.objects.map fun id => (b.objectName? id).getD id.text,
    c.constraint.constants.entries.map fun (k, v) => (k, rawText v),
    c.constraint.params.length, (residuals.map List.length).getD 0, residuals.map Scalar.maxAbs,
    c.constraint.kind.isModifier, c.constraint.isInternal⟩

def errorOf? (b : Workbench K) (c : NamedConstraint K) : Option (String × String) :=
  match c.constraint.valuesIn b.sketch with
  | .ok _ => none
  | .error e => some (c.name, e.message)

def objectLine (e : ObjectEntry) (name : String) : String :=
  let owner := match e.owner with
    | some o => s!" [MANAGED by {o}]"
    | none => ""
  s!"  {e.kind.name} \"{name}\" #{e.id.text}{owner}\n"

/-- Objects without a name are counted but not listed. -/
def objectsText (r : Report K) : String :=
  let lines := r.objects.filterMap fun e => e.name.map (objectLine e)
  s!"Objects ({r.objects.length} total, {lines.length} named, {r.paramCount} params):\n"
    ++ String.join lines

def constantsLine (cs : List (String × String)) : String :=
  if cs.isEmpty then ""
  else
    let list := ", ".intercalate (cs.map fun (k, v) => s!"{k}={v}")
    s!"      Constants: {list}\n"

def residualsLine (e : ConstraintEntry K) : String :=
  if e.isModifier then ""
  else
    let status := match e.worst with
      | some x => s!"max |r| = {Written.scientific 3 x}"
      | none => "not evaluated"
    s!"      Params: {e.paramCount} | Residuals: {e.residualCount} | {status}\n"

def constraintText (e : ConstraintEntry K) : String :=
  let flags := (if e.isModifier then " [MODIFIER]" else "")
    ++ (if e.isInternal then " [INTERNAL]" else "")
  let objects := ", ".intercalate e.objects
  s!"  [{e.index}] {e.label} \"{e.name}\"{flags}\n      Objects: {objects}\n"
    ++ constantsLine e.constants ++ residualsLine e

def constraintsText (r : Report K) : String :=
  let modifiers := r.constraints.countP (·.isModifier)
  s!"\nConstraints ({r.constraints.length} total, {modifiers} modifiers, "
    ++ s!"{r.errors.length} errors):\n" ++ String.join (r.constraints.map constraintText)

def verdictLine (v : Verdict K) : String :=
  let status := if v.passed then "PASS" else "FAIL"
  s!"  [{status}] {v.check}: {v.detail}\n"

def verdictsText (r : Report K) : String :=
  if r.verdicts.isEmpty then ""
  else
    let failed := r.verdicts.countP fun v => !v.passed
    s!"\nOracle Results ({r.verdicts.length} checks, {failed} failed):\n"
      ++ String.join (r.verdicts.map verdictLine)

def errorsText (r : Report K) : String :=
  if r.errors.isEmpty then "\nErrors: none\n"
  else
    s!"\nErrors ({r.errors.length}):\n"
      ++ String.join (r.errors.map fun (name, message) => s!"  {name}: {message}\n")

def text (r : Report K) : String :=
  "=== Sketch Constraint Report ===\n\n" ++ r.objectsText ++ r.constraintsText ++ r.verdictsText
    ++ r.errorsText

end Report

def Workbench.report {K : Type} [Scalar K] [Written K] (tol : K) :
    StateM (Workbench K) (Report K) := do
  let verdicts ← Workbench.checkAll tol
  let b ← get
  pure ⟨b.sketch.entities.map (Report.objectEntry b),
    b.constraints.zipIdx.map fun (c, i) => Report.constraintEntry b i c,
    b.sketch.paramCount, verdicts, b.constraints.filterMap (Report.errorOf? b)⟩

end Drafting
