import Drafting.Decimal.Literal

namespace Drafting.Decimal

inductive Numeral where
  | nan
  | infinite (negative : Bool)
  | finite (value : Literal)
deriving DecidableEq, Repr

namespace Numeral

def unsign : List Char → Bool × List Char
  | '-' :: r => (true, r)
  | '+' :: r => (false, r)
  | r => (false, r)

/-- A power of ten fills the rest of the text. -/
def exponent? : List Char → Option (Option Exponent)
  | [] => some none
  | c :: r =>
    if c == 'e' || c == 'E' then
      let (negative, digits) := unsign r
      if digits.isEmpty || !digits.all Char.isDigit then none
      else some (some ⟨if negative then .minus else .bare, digits⟩)
    else none

/-- Digits with at most one point among them; at least one digit in all. -/
def digits? (negative : Bool) (s : List Char) : Option Literal :=
  let whole := s.takeWhile Char.isDigit
  let rest := s.dropWhile Char.isDigit
  let (fraction, rest) :=
    match rest with
    | '.' :: r => (r.takeWhile Char.isDigit, r.dropWhile Char.isDigit)
    | r => ([], r)
  if whole.isEmpty && fraction.isEmpty then none
  else (exponent? rest).map fun e => ⟨negative, whole, fraction, e⟩

/-- The names are read in any case. -/
def read? (s : List Char) : Option Numeral :=
  let (negative, body) := unsign s
  let name := String.ofList (body.map Char.toLower)
  if name == "inf" || name == "infinity" then some (.infinite negative)
  else if name == "nan" then some .nan
  else (digits? negative body).map .finite

end Numeral

end Drafting.Decimal
