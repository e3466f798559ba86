import Drafting.Scalar
import Drafting.Decimal.Literal

namespace Drafting

/-- Numbers with written forms. -/
class Written (K : Type) where
  /-- The fewest digits, with an exponent outside `[0.0001, 10 ^ 16)`; whole numbers keep `.0`. -/
  exact : K → String
  /-- The fewest digits, never an exponent. -/
  plain : K → String
  /-- A given number of places. -/
  fixed : Nat → K → String
  /-- One digit before the point, a given number after it, and an exponent. -/
  scientific : Nat → K → String
  /-- A typed numeral, if the text is one. -/
  read? : String → Option K
  /-- What is stored for a finite number. -/
  literal : K → Decimal.Literal
  /-- The number that a stored literal stands for, if it is in range. -/
  ofLiteral? : Decimal.Literal → Option K

end Drafting
