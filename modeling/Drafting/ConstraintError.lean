import Drafting.Kind
import Drafting.Sketch

namespace Drafting

inductive ConstraintError where
  | unknownSchema (id : String)
  | arity (kind : Kind) (found : Nat)
  | scopeMismatch (kind : Kind) (expected found : Nat)
  /-- The record names an object that the index does not have. -/
  | notIndexed (id : ObjectId)
  | notAModifier (kind : Kind)
  | alreadyManaged (id : ObjectId) (owner : ConstraintId)
  /-- What the sketch refuses for any other reason. -/
  | sketch (e : SketchError)
  | parse
deriving DecidableEq, Repr

namespace ConstraintError

def ofSketch : SketchError → ConstraintError
  | .alreadyManaged id owner => .alreadyManaged id owner
  | e => .sketch e

def message : ConstraintError → String
  | .unknownSchema id => s!"constraint schema '{id}' doesn't exist"
  | .arity kind found => s!"{kind.id} expects {kind.arity.text} objects, got {found}"
  | .scopeMismatch kind expected found =>
    s!"{kind.id} expects {expected} parameters, got {found}"
  | .notIndexed id => s!"object {id.text} is not in the object index"
  | .notAModifier kind => s!"{kind.id} is not a modifier constraint"
  | .alreadyManaged id owner =>
    "there can be only one managing modifier for an object: "
      ++ (SketchError.alreadyManaged id owner).message
  | .sketch e => e.message
  | .parse => "failed to parse constraint record: "

end ConstraintError

/-- An answer of the sketch, as constraints report it. -/
def orConstraintError {α : Type} (x : Except SketchError α) : Except ConstraintError α :=
  x.mapError .ofSketch

end Drafting
