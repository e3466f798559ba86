namespace Drafting.Decimal

/-- How the sign of an exponent is written. -/
inductive Mark where
  | bare
  | plus
  | minus
deriving DecidableEq, Repr

structure Exponent where
  mark : Mark
  digits : List Char
deriving DecidableEq, Repr

/-- No point is written where no digit follows it. -/
structure Literal where
  negative : Bool
  whole : List Char
  fraction : List Char
  exponent : Option Exponent
deriving DecidableEq, Repr

def number (digits : List Char) : Nat :=
  digits.foldl (fun n c => 10 * n + (c.toNat - '0'.toNat)) 0

def Mark.chars : Mark → List Char
  | .bare => []
  | .plus => ['+']
  | .minus => ['-']

def Exponent.chars (e : Exponent) : List Char :=
  'e' :: e.mark.chars ++ e.digits

def Exponent.value (e : Exponent) : Int :=
  match e.mark with
  | .minus => -(number e.digits : Int)
  | _ => number e.digits

namespace Literal

def chars (l : Literal) : List Char :=
  (if l.negative then ['-'] else []) ++ l.whole
    ++ (if l.fraction.isEmpty then [] else '.' :: l.fraction)
    ++ (match l.exponent with
        | none => []
        | some e => e.chars)

def text (l : Literal) : String :=
  String.ofList l.chars

/-- All digits, read without the point. -/
def significand (l : Literal) : Nat :=
  number (l.whole ++ l.fraction)

/-- The power of ten that the exponent names. -/
def power (l : Literal) : Int :=
  match l.exponent with
  | none => 0
  | some e => e.value

/-- The power of ten that the significand is multiplied by. -/
def scale (l : Literal) : Int :=
  l.power - l.fraction.length

/-- Written without point and exponent. -/
def isWhole (l : Literal) : Bool :=
  l.fraction.isEmpty && l.exponent.isNone

def ofNat (n : Nat) : Literal :=
  ⟨false, Nat.toDigits 10 n, [], none⟩

end Literal

end Drafting.Decimal
