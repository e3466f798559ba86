import Drafting.Constraint

namespace Drafting

open Constant (Raw Resolved)

structure Memo (K : Type) where
  constraint : Constraint K
  /-- What the constants resolve to, if that was asked for since they changed. -/
  resolved? : Option (Resolved K)

namespace Memo

variable {K : Type}

def new (c : Constraint K) : Memo K := ⟨c, none⟩

/-- An operation. What it did before failing stays. -/
abbrev Action (K α : Type) : Type := ExceptT ConstraintError (StateM (Memo K)) α

def setConstant (name : String) (value : Raw K) : StateM (Memo K) Unit :=
  modify fun m => new (m.constraint.setConstant name value)

/-- Measures the constants of the kinds for which `applies` holds. Where that is refused, and for
other kinds, nothing is forgotten. -/
def refresh (applies : Kind → Bool)
    (measure : Constraint K → Except ConstraintError (Constraint K)) : Action K Unit := do
  let m ← get
  if applies m.constraint.kind then
    match measure m.constraint with
    | .ok c => set (new c)
    | .error e => throw e
  else
    pure ()

variable [Scalar K] [Written K]

def resolve : StateM (Memo K) (Resolved K) :=
  modifyGet fun m =>
    let r := m.resolved?.getD m.constraint.resolved
    (r, { m with resolved? := some r })

def residuals : Action K (List (Polynomial K)) := do
  let r ← liftM (resolve (K := K))
  let m ← get
  match m.constraint.kind.residuals m.constraint.params r with
  | .ok ps => pure ps
  | .error e => throw e

def initConstants (s : Sketch K) : Action K Unit :=
  refresh (fun k => !k.definitions.isEmpty) (·.initConstants s)

def resync (s : Sketch K) : Action K Unit := refresh (·.resyncs) (·.resync s)

end Memo

end Drafting
