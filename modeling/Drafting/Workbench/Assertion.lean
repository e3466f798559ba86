import Drafting.Workbench
import Drafting.Expectation

namespace Drafting.Workbench

variable {K : Type} [Scalar K] [Written K]

def check (name : String) (tol : K) : Action K (List (Verdict K)) := do
  let c ← ask (·.constraint name)
  onSketch (Audit.runAll c tol)

/-- Every check of every constraint, and the one on ownership. -/
def checkAll (tol : K) : StateM (Workbench K) (List (Verdict K)) := fun b =>
  let constraints := b.constraints.map (·.constraint)
  let (verdicts, s) := (constraints.mapM fun c => Audit.runAll c tol).run b.sketch
  (verdicts.flatten ++ [Audit.singleOwner s constraints], { b with sketch := s })

/-- What is said of a constraint with a residual farther than `tol` from zero. -/
def failing? (b : Workbench K) (tol : K) (c : NamedConstraint K) :
    Except WorkbenchError (Option String) := do
  let values ← c.constraint.valuesIn b.sketch
  let worst := Scalar.maxAbs values
  if Scalar.isNaN worst || Scalar.lt tol worst then
    pure (some s!"{c.name} ({c.constraint.label}) = {Written.scientific 3 worst}")
  else pure none

/-- Every residual of every constraint is within `tol` of zero. -/
def assertSatisfied (b : Workbench K) (tol : K) : Except WorkbenchError Unit := do
  let failing := (← b.constraints.mapM (b.failing? tol)).reduceOption
  if failing.isEmpty then pure ()
  else
    let list := ", ".intercalate failing
    throw (.assertionFailed s!"unsatisfied constraints (tol={Written.plain tol}): {list}")

omit [Scalar K] [Written K]

def assertCount (b : Workbench K) (expected : Nat) : Except WorkbenchError Unit :=
  if b.constraintCount = expected then .ok ()
  else
    let names := Text.listed (b.constraints.map fun c => Text.quote c.name)
    .error (.assertionFailed
      s!"expected {expected} constraints, got {b.constraintCount}. Constraints: {names}")

def contents (b : Workbench K) : List (String × String) :=
  b.constraints.map fun c => (c.name, c.constraint.kind.id)

/-- The constraints have the expected names and kinds, in this order. -/
def assertList (b : Workbench K) (expected : List (String × String)) :
    Except WorkbenchError Unit :=
  let actual := b.contents
  if actual.length ≠ expected.length then
    let list := Text.listed (actual.map fun (n, k) => s!"({Text.quote n}, {Text.quote k})")
    .error (.assertionFailed (s!"constraint list length mismatch: expected {expected.length}, "
      ++ s!"got {actual.length}.\nActual: {list}"))
  else
    match (actual.zip expected).zipIdx.find? fun ((a, e), _) => a != e with
    | none => .ok ()
    | some (((name, kind), (wantedName, wantedKind)), i) =>
      .error (.assertionFailed (s!"constraint mismatch at index {i}: "
        ++ s!"expected (\"{wantedName}\", \"{wantedKind}\"), got (\"{name}\", \"{kind}\")"))

end Drafting.Workbench
