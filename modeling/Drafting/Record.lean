import Drafting.Constraint
import Drafting.Json.Printer
import Drafting.Json.Reader

namespace Drafting

open Constant (Raw)

structure Record (K : Type) where
  typeId : String
  objects : List ObjectId
  constants : Table (Raw K)

namespace Record

variable {K : Type}

def same [Scalar K] (r q : Record K) : Bool :=
  r.typeId == q.typeId && r.objects == q.objects && Constant.sameConstants r.constants q.constants

section Writing

variable [Scalar K] [Written K]

/-- A number that is not finite has no stored form. -/
def rawJson : Raw K → Json
  | .text s => .text s
  | .number x => if Scalar.isFinite x then .number (Written.literal x) else .null
  | .flag b => .bool b

/-- The constants are left out if there are none. -/
def constantFields (t : Table (Raw K)) : List (String × Json) :=
  if t.entries.isEmpty then []
  else [("constants", .fields (t.entries.map fun (k, v) => (k, rawJson v)))]

def recordFields (r : Record K) : List (String × Json) :=
  [("typeId", .text r.typeId), ("objects", .array (r.objects.map fun id => .nat id.val))]
    ++ constantFields r.constants

def toJson (r : Record K) : Json := .fields r.recordFields

def write (r : Record K) : String := r.toJson.compact

end Writing

/-- Numbers of objects have 32 bits and are written as whole numbers. -/
def objectId? : Json → Option ObjectId
  | .number l =>
    if l.isWhole && !l.negative && l.significand < Nat.pow 2 32 then some ⟨l.significand⟩ else none
  | _ => none

def objectIds? : Json → Option (List ObjectId)
  | .array items => items.mapM objectId?
  | _ => none

def typeId? : Json → Option String
  | .string s => s
  | _ => none

/-- The values of a member that is named at most once: none if it is absent. -/
def member? (members : List (Option String × Json)) (name : String) : Option (Option Json) :=
  match members.filter fun m => m.1 == some name with
  | [] => some none
  | [m] => some (some m.2)
  | _ => none

section Reading

variable [Written K]

def raw? : Json → Option (Raw K)
  | .bool b => some (.flag b)
  | .number l => (Written.ofLiteral? l).map .number
  | .string s => s.map .text
  | _ => none

/-- Of constants with one name the last stays. -/
def constants? : Json → Option (Table (Raw K))
  | .object members => do
    let entries ← members.mapM fun m => do pure ((← m.1), (← raw? m.2))
    pure (.ofList entries)
  | _ => none

def build? (typeId objects : Json) (constants : Option Json) : Option (Record K) := do
  let typeId ← typeId? typeId
  let objects ← objectIds? objects
  match constants with
  | none => pure ⟨typeId, objects, .empty⟩
  | some c => pure ⟨typeId, objects, ← constants? c⟩

/-- Members of other names are allowed, as long as their names are texts. -/
def ofMembers? (members : List (Option String × Json)) : Option (Record K) := do
  if members.any fun m => m.1.isNone then none
  let typeId ← member? members "typeId"
  let objects ← member? members "objects"
  let constants ← member? members "constants"
  build? (← typeId) (← objects) constants

/-- A record is an object, or an array of its parts in their order. -/
def ofJson? : Json → Option (Record K)
  | .object members => ofMembers? members
  | .array [typeId, objects] => build? typeId objects none
  | .array [typeId, objects, constants] => build? typeId objects (some constants)
  | _ => none

def read? (s : String) : Option (Record K) := Json.read? s >>= ofJson?

end Reading

end Record

namespace Constraint

variable {K : Type}

def record (c : Constraint K) : Record K := ⟨c.kind.id, c.objects, c.constants⟩

variable [Scalar K]

/-- Makes a constraint from a record, with its objects found through `index`. All objects are looked
up before the kind is. -/
def readVia (index : ObjectId → Option ObjectId) (r : Record K) :
    Sketch.Edit K ConstraintError (Constraint K) := do
  let objects ← r.objects.mapM fun id =>
    match index id with
    | some live => pure live
    | none => throw (.notIndexed id)
  match Kind.ofId? r.typeId with
  | none => throw (.unknownSchema r.typeId)
  | some kind => make kind objects r.constants .standard

/-- Makes a constraint from a record that refers to the objects of the sketch itself. -/
def read (r : Record K) : Sketch.Edit K ConstraintError (Constraint K) := do
  let s ← get
  readVia (fun id => if s.contains id then some id else none) r

end Constraint

end Drafting
