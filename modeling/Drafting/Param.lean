import Drafting.Scalar

namespace Drafting

/-- A parameter's place: its slot, counted from one, and the generation it belongs to. -/
@[ext] structure Handle where
  slot : Nat
  generation : Nat
deriving DecidableEq, Repr

namespace Handle

/-- The handle of no parameter: slots have 32 bits, and the last number is given to none. -/
def null : Handle := ⟨Nat.pow 2 32 - 1, 1⟩

def isNull (h : Handle) : Bool := h.slot == null.slot

def text (h : Handle) : String := if h.isNull then "null" else s!"{h.slot}v{h.generation}"

end Handle

/-- A strict limit that the solver keeps a parameter to. -/
inductive Bound (K : Type) where
  | above (limit : K)
  | below (limit : K)
deriving DecidableEq, Repr

def Bound.holds {K : Type} [Scalar K] (x : K) : Bound K → Bool
  | .above limit => Scalar.lt limit x
  | .below limit => Scalar.lt x limit

structure Param (K : Type) where
  value : K
  name : String
  bounds : List (Bound K)
deriving DecidableEq, Repr

def Param.inBounds {K : Type} [Scalar K] (p : Param K) : Bool :=
  p.bounds.all (Bound.holds p.value)

end Drafting
