import Drafting.Angle
import Drafting.Table
import Drafting.Written
import Drafting.Text.Blank

namespace Drafting.Constant

open Coefficient (ofInt)

inductive Raw (K : Type) where
  | text (s : String)
  | number (x : K)
  | flag (b : Bool)
deriving Repr

/-- A constant that was resolved or measured. -/
inductive Value (K : Type) where
  | number (x : K)
  | flag (b : Bool)
deriving Repr

inductive Form where
  | number
  | flag
deriving DecidableEq, Repr

/-- What a number is given in. -/
inductive Scale where
  /-- Used as it is. -/
  | plain
  | degrees
  /-- Degrees less whole turns, with the sign kept. -/
  | turnedDegrees
deriving DecidableEq, Repr

structure Definition where
  name : String
  form : Form
  description : String
  /-- Fixed when the constraint is made. -/
  readOnly : Bool
  scale : Scale
deriving DecidableEq, Repr

variable {K : Type} [Scalar K]

def Scale.convert : Scale → K → K
  | .plain, x => x
  | .degrees, x => Angle.toRadians x
  | .turnedDegrees, x => Angle.toRadians (Scalar.rem x (ofInt 360))

/-- Two constants are alike if they were given in the same way and are equal. -/
def Raw.same : Raw K → Raw K → Bool
  | .text s, .text t => s == t
  | .number x, .number y => x == y
  | .flag a, .flag b => a == b
  | _, _ => false

def Value.same : Value K → Value K → Bool
  | .number x, .number y => x == y
  | .flag a, .flag b => a == b
  | _, _ => false

/-- A text that is no numeral and a flag stand for a missing number. -/
def Raw.asNumber [Written K] : Raw K → K
  | .number x => x
  | .text s => (Written.read? (String.ofList (Text.trim s.toList))).getD Scalar.nan
  | .flag _ => Scalar.nan

def Raw.asFlag : Raw K → Bool
  | .flag b => b
  | .text s => s == "true"
  | .number x => x != ofInt 0

def sameConstants (t u : Table (Raw K)) : Bool :=
  t.names == u.names && (t.entries.zip u.entries).all fun (a, b) => a.2.same b.2

def Definition.resolve [Written K] (d : Definition) (raw : Raw K) : Value K :=
  match d.form with
  | .number => .number (d.scale.convert raw.asNumber)
  | .flag => .flag raw.asFlag

structure Resolved (K : Type) where
  entries : List (String × Value K)

/-- Constants without a definition play no part. -/
def resolve [Written K] (defs : List Definition) (t : Table (Raw K)) : Resolved K :=
  ⟨defs.filterMap fun d => (t.get? d.name).map fun raw => (d.name, d.resolve raw)⟩

namespace Resolved

omit [Scalar K] in
def get? (r : Resolved K) (name : String) : Option (Value K) :=
  (r.entries.find? fun e => e.1 == name).map (·.2)

/-- Missing unless there is such a number. -/
def number (r : Resolved K) (name : String) : K :=
  match r.get? name with
  | some (.number x) => x
  | _ => Scalar.nan

/-- False unless there is such a flag. -/
def flag (r : Resolved K) (name : String) : Bool :=
  match r.get? name with
  | some (.flag b) => b
  | _ => false

end Resolved

end Drafting.Constant
