import Drafting.Record
import Drafting.WorkbenchError
import Drafting.Text.Quoted

namespace Drafting

open Coefficient (ofInt)
open Constant (Raw Value)

structure Verdict (K : Type) where
  /-- The name of the check. -/
  check : String
  passed : Bool
  detail : String
  value : Option K

def Constraint.valuesIn {K : Type} [Scalar K] [Written K] (c : Constraint K) (s : Sketch K) :
    Except WorkbenchError (List K) :=
  (c.residualValues s).mapError .constraint

namespace Audit

variable {K : Type} [Scalar K] [Written K]

def rawText : Raw K → String
  | .text s => s!"Text({Text.quote s})"
  | .number x => s!"Number({Written.exact x})"
  | .flag b => s!"Flag({b})"

def valueText : Value K → String
  | .number x => s!"Number({Written.exact x})"
  | .flag b => s!"Flag({b})"

def tableText (t : Table (Raw K)) : String :=
  let entries := t.entries.map fun (k, v) => s!"{Text.quote k}: {rawText v}"
  "\x7b" ++ ", ".intercalate entries ++ "\x7d"

def measuresText (vs : List (String × Value K)) : String :=
  Text.listed (vs.map fun (k, v) => s!"({Text.quote k}, {valueText v})")

def recordText (r : Record K) : String :=
  let objects := Text.listed (r.objects.map fun id => s!"ObjectId({id.text})")
  "ConstraintRecord \x7b " ++ s!"type_id: {Text.quote r.typeId}, objects: {objects}, "
    ++ s!"constants: {tableText r.constants}" ++ " \x7d"

def ownerText : Option ConstraintId → String
  | none => "None"
  | some id => s!"Some(ConstraintId({id.val}))"

/-- Every residual is within `tol` of zero. -/
def residualsSatisfied (c : Constraint K) (s : Sketch K) (tol : K) : Verdict K :=
  match c.valuesIn s with
  | .error e => ⟨"residuals_satisfied", false, s!"{c.label}: {e.message}", none⟩
  | .ok values =>
    let worst := Scalar.maxAbs values
    let shown := Written.scientific 3 worst
    if Scalar.le worst tol then
      ⟨"residuals_satisfied", true,
        s!"{c.label}: {values.length} residuals, max |r| = {shown}", some worst⟩
    else
      let first := Text.listed ((values.take 5).map Written.exact)
      ⟨"residuals_satisfied", false,
        s!"{c.label}: max |r| = {shown} exceeds tol {Written.plain tol} (values {first})",
        some worst⟩

def nonFinite (values : List K) : List Nat :=
  (values.zipIdx.filter fun (v, _) => !Scalar.isFinite v).map (·.2)

def finiteResiduals (c : Constraint K) (s : Sketch K) : Verdict K :=
  match c.valuesIn s with
  | .error e => ⟨"finite_residuals", false, s!"{c.label}: {e.message}", none⟩
  | .ok values =>
    let bad := nonFinite values
    if bad.isEmpty then
      ⟨"finite_residuals", true, s!"{c.label}: all {values.length} residuals finite", none⟩
    else
      let places := Text.listed (bad.map fun (i : Nat) => toString i)
      ⟨"finite_residuals", false, s!"{c.label}: non-finite residuals at {places}", none⟩

/-- The residuals are written over the scope and nothing else. -/
def paramsInScope (c : Constraint K) : Verdict K :=
  match c.residuals with
  | .error e => ⟨"params_in_scope", false, s!"{c.label}: {e.message}", none⟩
  | .ok ps =>
    let stray := ((ps.flatMap Polynomial.params).filter fun h => !c.params.contains h).length
    if stray = 0 then
      ⟨"params_in_scope", true,
        s!"{c.label}: {ps.length} residuals over {c.params.length} params", none⟩
    else ⟨"params_in_scope", false, s!"{c.label}: {stray} terms outside the scope", none⟩

def outside? (s : Sketch K) (h : Handle) : Option String :=
  match s.param? h with
  | none => some "<removed>"
  | some p => if p.inBounds then none else some s!"{p.name}={Written.plain p.value}"

def paramBounds (c : Constraint K) (s : Sketch K) : Verdict K :=
  let outside := c.auxiliary.filterMap (outside? s)
  if outside.isEmpty then
    ⟨"param_bounds", true, s!"{c.label}: {c.auxiliary.length} auxiliary params in bounds", none⟩
  else
    let list := ", ".intercalate outside
    ⟨"param_bounds", false, s!"{c.label}: out of bounds: {list}", none⟩

/-- The choice between two standing directions that a kind makes, if it makes one. -/
def nearest? : Kind → Option (K → K)
  | .vertical | .perpendicular => some Angle.nearestVertical
  | .horizontal | .parallel => some Angle.nearestHorizontal
  | _ => none

/-- A millionth of a thousandth of a degree: angles no farther apart are the same. -/
def sameAngle : K := ofInt 1 / ofInt 1000000000

/-- The direction that a constraint holds is the one nearest to the measured angle. -/
def branchCanonical (c : Constraint K) (s : Sketch K) : Verdict K :=
  match nearest? (K := K) c.kind with
  | none => ⟨"branch_canonical", true, s!"{c.label}: no branch", none⟩
  | some nearest =>
    let held := Angle.toDegrees (c.resolved.number "angle")
    match c.kind.measure s c.objects with
    | .error e => ⟨"branch_canonical", false, s!"{c.label}: {e.message}", none⟩
    | .ok measured =>
      match measured.head? with
      | some (_, .number x) =>
        let expected := nearest x
        let shown := Written.plain expected
        if Scalar.lt (Scalar.abs (held - expected)) sameAngle then
          ⟨"branch_canonical", true, s!"{c.label}: holds {shown}", some held⟩
        else
          ⟨"branch_canonical", false,
            s!"{c.label}: holds {Written.fixed 3 held}, nearest canonical is {shown}", some held⟩
      | _ => ⟨"branch_canonical", false, s!"{c.label}: no measured angle", none⟩

def sameMeasures (a b : List (String × Value K)) : Bool :=
  a.length == b.length && (a.zip b).all fun (x, y) => x.1 == y.1 && x.2.same y.2

/-- Measuring twice gives the same; a value that is missing is never the same. -/
def branchDeterministic (k : Kind) (s : Sketch K) (objects : List ObjectId) : Verdict K :=
  match k.measure s objects with
  | .error e => ⟨"branch_deterministic", false, s!"{k.id}: {e.message}", none⟩
  | .ok a =>
    if sameMeasures a a then
      ⟨"branch_deterministic", true, s!"{k.id}: {a.length} constants repeat", none⟩
    else
      ⟨"branch_deterministic", false, s!"{k.id}: {measuresText a} then {measuresText a}", none⟩

def markProblem? (s : Sketch K) (c : Constraint K) (id : ObjectId) : Option String :=
  match s.owner id with
  | .error e => some s!"{id.text}: {e.message}"
  | .ok owner =>
    if owner = some c.id then none
    else some s!"{id.text} listed by {c.label} but owned by {ownerText owner}"

/-- Every target with the constraint that lists it, in order. -/
def listings (cs : List (Constraint K)) : List (ObjectId × Constraint K) :=
  (cs.filter (·.kind.isModifier)).flatMap fun c => c.managed.map fun id => (id, c)

/-- The constraints that list an object, once for each time they do. -/
def claimants (ls : List (ObjectId × Constraint K)) (id : ObjectId) : List (Constraint K) :=
  (ls.filter fun l => l.1 == id).map (·.2)

def distinct (ids : List ObjectId) : List ObjectId :=
  ids.foldl (fun seen id => if seen.contains id then seen else seen ++ [id]) []

def claimProblem? (ls : List (ObjectId × Constraint K)) (id : ObjectId) : Option String :=
  match claimants ls id with
  | [] | [_] => none
  | cs =>
    let names := " and ".intercalate (cs.map Constraint.label)
    some s!"{id.text} claimed by {names}"

/-- Every target is marked as owned by the one modifier that lists it. -/
def singleOwner (s : Sketch K) (cs : List (Constraint K)) : Verdict K :=
  let ls := listings cs
  let targets := distinct (ls.map (·.1))
  let problems := ls.filterMap (fun (id, c) => markProblem? s c id)
    ++ targets.filterMap (claimProblem? ls)
  if problems.isEmpty then
    ⟨"single_owner", true, s!"{targets.length} managed objects, one owner each", none⟩
  else
    ⟨"single_owner", false, "; ".intercalate (problems.mergeSort (fun a b => a ≤ b)), none⟩

/-- What the check finds in a constraint that was read back, before it is released again. -/
def restoredVerdict (c restored : Constraint K) : Verdict K :=
  let same := restored.kind == c.kind && restored.objects == c.objects
    && Constant.sameConstants restored.constants c.constants
    && restored.params.length == c.params.length
  if restored.kind.isModifier then
    ⟨"round_trip", false, s!"{c.label}: duplicate modifier was accepted", none⟩
  else if same then ⟨"round_trip", true, s!"{c.label}: record restored", none⟩
  else ⟨"round_trip", false, s!"{c.label}: restored instance differs", none⟩

/-- What the check makes of a record that was refused. -/
def refusedVerdict (c : Constraint K) (e : ConstraintError) : Verdict K :=
  match e, c.kind.isModifier with
  | .alreadyManaged .., true =>
    ⟨"round_trip", true, s!"{c.label}: record restored, ownership kept", none⟩
  | e, _ => ⟨"round_trip", false, s!"{c.label}: {e.message}", none⟩

/-- A constraint is the same after it was stored and read again. A modifier must be refused while
its targets are marked. -/
def roundTrip (c : Constraint K) : StateM (Sketch K) (Verdict K) := do
  let record := c.record
  match Record.read? record.write with
  | none => pure (refusedVerdict c .parse)
  | some stored =>
    if !stored.same record then
      pure ⟨"round_trip", false,
        s!"{c.label}: {recordText record} became {recordText stored}", none⟩
    else
      match ← (Constraint.read stored).run with
      | .ok restored =>
        modify restored.release
        pure (restoredVerdict c restored)
      | .error e => pure (refusedVerdict c e)

def runAll (c : Constraint K) (tol : K) : StateM (Sketch K) (List (Verdict K)) := do
  let s ← get
  let stored ← roundTrip c
  pure [residualsSatisfied c s tol, finiteResiduals c s, paramsInScope c, paramBounds c s,
    branchCanonical c s, stored]

end Audit

end Drafting
