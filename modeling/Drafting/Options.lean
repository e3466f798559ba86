import Drafting.Scalar

namespace Drafting

open Coefficient (ofInt)

/-- The start of a curve parameter and the open interval it is kept in. -/
structure CurveStart (K : Type) where
  initial : K
  lower : K
  upper : K
deriving DecidableEq, Repr

structure Options (K : Type) where
  /-- The places of constants that are measured when a constraint is made. -/
  places : Nat
  curve : CurveStart K
deriving DecidableEq, Repr

def CurveStart.standard {K : Type} [Scalar K] : CurveStart K :=
  ⟨ofInt 1 / ofInt 2, ofInt 0, ofInt 1⟩

def Options.standard {K : Type} [Scalar K] : Options K := ⟨2, .standard⟩

end Drafting
