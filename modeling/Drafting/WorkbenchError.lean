import Drafting.ConstraintError

namespace Drafting

inductive WorkbenchError where
  | objectNotFound (name : String)
  | constraintNotFound (name : String)
  | duplicateName (name : String)
  | assertionFailed (detail : String)
  | checkFailed (check detail : String)
  | constraint (e : ConstraintError)
  | sketch (e : SketchError)
  | serialization
deriving DecidableEq, Repr

def WorkbenchError.message : WorkbenchError → String
  | .objectNotFound name => s!"object not found: {name}"
  | .constraintNotFound name => s!"constraint not found: {name}"
  | .duplicateName name => s!"duplicate name: {name}"
  | .assertionFailed detail => s!"assertion failed: {detail}"
  | .checkFailed check detail => s!"oracle failure ({check}): {detail}"
  | .constraint e => s!"constraint error: {e.message}"
  | .sketch e => s!"geometry error: {e.message}"
  | .serialization => "serialization error: "

end Drafting
