namespace Drafting

/-- Numbers that weighted products are summed over. -/
class Coefficient (K : Type) extends Add K, Mul K, Neg K where
  ofInt : Int → K

/-- Numbers that lengths and angles are measured in. -/
class Scalar (K : Type) extends Coefficient K, Sub K, Div K, BEq K where
  pi : K
  /-- Stands for a value that is missing. -/
  nan : K
  abs : K → K
  sqrt : K → K
  sin : K → K
  cos : K → K
  /-- The direction of the step whose `y` is given first and whose `x` second. -/
  atan2 : K → K → K
  /-- The length of a step, where the squares of its coordinates may be out of range. -/
  hypot : K → K → K
  /-- What division leaves, with the sign of the dividend. -/
  rem : K → K → K
  lt : K → K → Bool
  le : K → K → Bool
  isNaN : K → Bool
  isFinite : K → Bool

namespace Scalar

variable {K : Type} [Scalar K]

/-- The greater of two numbers; a missing value gives way to the other. -/
def greater (a b : K) : K :=
  if isNaN a then b else if isNaN b then a else if lt a b then b else a

/-- The lesser of two numbers; a missing value gives way to the other. -/
def lesser (a b : K) : K :=
  if isNaN a then b else if isNaN b then a else if lt b a then b else a

/-- The largest absolute value; missing as soon as one value is, and zero for no values. -/
def maxAbs (values : List K) : K :=
  values.foldl
    (fun acc v => if isNaN v || isNaN acc then nan else greater acc (abs v))
    (Coefficient.ofInt 0)

end Scalar

end Drafting
