import Drafting.Audit

namespace Drafting.Expectation

open Constant (Raw)

variable {K : Type} [Scalar K] [Written K]

/-- Whether a residual is no farther than `tol` from zero; a missing one never is. -/
def isNearZero (tol v : K) : Bool := !(Scalar.isNaN v || Scalar.lt tol (Scalar.abs v))

def meet (problem : Option String) : Except WorkbenchError Unit :=
  match problem with
  | none => .ok ()
  | some detail => .error (.assertionFailed detail)

def nearZero (c : Constraint K) (s : Sketch K) (tol : K) (ctx : String) :
    Except WorkbenchError Unit := do
  let values ← c.valuesIn s
  meet ((values.zipIdx.find? fun (v, _) => !isNearZero tol v).map fun (v, i) =>
    s!"[{ctx}] {c.label} residual[{i}] = {Written.scientific 6 v} (tol={Written.plain tol})")

/-- The residuals are as many as expected, and none is farther than `tol` from the expected one. -/
def residualsEqual (c : Constraint K) (s : Sketch K) (expected : List K) (tol : K)
    (ctx : String) : Except WorkbenchError Unit := do
  let actual ← c.valuesIn s
  if actual.length ≠ expected.length then
    let list := Text.listed (actual.map Written.exact)
    meet (some (s!"[{ctx}] {c.label} expected {expected.length} residuals, "
      ++ s!"got {actual.length}: {list}"))
  let far := (actual.zip expected).zipIdx.find? fun ((a, e), _) =>
    Scalar.lt tol (Scalar.abs (a - e))
  meet (far.map fun ((a, e), i) =>
    s!"[{ctx}] {c.label} residual[{i}]: expected {Written.fixed 6 e}, "
      ++ s!"got {Written.fixed 6 a} (tol={Written.plain tol})")

def constantIs (c : Constraint K) (name : String) (expected : Raw K) (ctx : String) :
    Except WorkbenchError Unit :=
  let actual := c.constants.get? name
  let met := match actual with
    | some a => a.same expected
    | none => false
  let shown := match actual with
    | some a => s!"Some({Audit.rawText a})"
    | none => "None"
  meet (if met then none else
    some (s!"[{ctx}] {c.label} constant \"{name}\": expected {Audit.rawText expected}, "
      ++ s!"got {shown}. Constants: {Audit.tableText c.constants}"))

omit [Scalar K] [Written K] in
def ownedBy (s : Sketch K) (object : ObjectId) (expected : Option ConstraintId) (ctx : String) :
    Except WorkbenchError Unit := do
  let actual ← (s.owner object).mapError .sketch
  meet (if actual = expected then none else
    some (s!"[{ctx}] object {object.text} owner: expected {Audit.ownerText expected}, "
      ++ s!"got {Audit.ownerText actual}"))

end Drafting.Expectation
