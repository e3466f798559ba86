import Drafting.Written
import Drafting.Decimal.Layout
import Drafting.Decimal.Numeral

namespace Drafting.Double

open Float.Model (UnpackedFloat Format)
open Float.Model.UnpackedFloat (Sign)
open Decimal

/-- What a double stands for. -/
inductive Parts where
  | nan
  | infinite (negative : Bool)
  | finite (negative : Bool) (m : Magnitude)

def isNegative : Sign → Bool
  | .negative => true
  | .positive => false

def parts (x : Float) : Parts :=
  match x.toModel.unpack with
  | .notANumber => .nan
  | .infinity s => .infinite (isNegative s)
  | .zero s => .finite (isNegative s) .zero
  | .finite s m e _ => .finite (isNegative s) (.positive ⟨m, e⟩)

def ofUnpacked (u : UnpackedFloat) : Float :=
  ⟨.pack u⟩

/-- A mantissa with its exponent lowered to `e`. -/
def lowered (b : Binary) (e : Int) : Nat :=
  b.mantissa * Nat.pow 2 (b.exponent - e).toNat

def nan : Float := ofUnpacked .notANumber

/-- The remainder is exact. -/
def rem (x y : Float) : Float :=
  match x.toModel.unpack, y.toModel.unpack with
  | .notANumber, _ | _, .notANumber | .infinity _, _ | _, .zero _ => nan
  | .zero s, _ => ofUnpacked (.zero s)
  | _, .infinity _ => x
  | .finite s m e _, .finite _ m' e' _ =>
    let low := min e e'
    let r := lowered ⟨m, e⟩ low % lowered ⟨m', e'⟩ low
    if r = 0 then ofUnpacked (.zero s) else ofUnpacked (.round Format.binary64 s r low)

/-- The root of the exact sum of squares, rounded once. An infinity outweighs a missing value. -/
def hypot (x y : Float) : Float :=
  if x.isInf || y.isInf then ofUnpacked (.infinity .positive)
  else
    match x.toModel.unpack, y.toModel.unpack with
    | .finite _ m e _, .finite _ m' e' _ =>
      let low := min e e'
      let a := lowered ⟨m, e⟩ low
      let b := lowered ⟨m', e'⟩ low
      if h : 0 < a * a + b * b then
        ofUnpacked (.sqrt Format.binary64 (.finite .positive (a * a + b * b) (2 * low) h))
      else nan
    | .zero _, _ => y.abs
    | _, .zero _ => x.abs
    | _, _ => nan

instance : Scalar Float where
  ofInt := Float.ofInt
  pi := 3.141592653589793
  nan := nan
  abs := Float.abs
  sqrt := Float.sqrt
  sin := Float.sin
  cos := Float.cos
  atan2 := Float.atan2
  hypot := hypot
  rem := rem
  lt a b := decide (a < b)
  le a b := decide (a ≤ b)
  isNaN := Float.isNaN
  isFinite := Float.isFinite

/-- Texts write a number out between `0.0001` and `10 ^ 16`. -/
def exactLayout : Layout := ⟨.up, some (-4, 16), true, .bare⟩

/-- Texts for people never show an exponent. -/
def plainLayout : Layout := ⟨.up, none, false, .bare⟩

/-- Stored numbers are written out between `0.00001` and `10 ^ 16`. -/
def storedLayout : Layout := ⟨.toEven, some (-5, 16), true, .plus⟩

/-- Missing values and infinities have names; all else is set by `write`. -/
def text (write : Bool → Magnitude → Literal) (x : Float) : String :=
  match parts x with
  | .nan => "NaN"
  | .infinite negative => if negative then "-inf" else "inf"
  | .finite negative m => (write negative m).text

def ofNumeral : Numeral → Float
  | .nan => nan
  | .infinite negative => ofUnpacked (.infinity (if negative then .negative else .positive))
  | .finite l =>
    let x := Float.ofScientific l.significand (l.scale < 0) l.scale.natAbs
    if l.negative then -x else x

/-- Adds a digit unless the number would leave 64 bits; once one is left out, so are the rest.
The second part counts what is left out. -/
def capped (start : Nat) (digits : List Char) : Nat × Nat :=
  let (n, dropped) := digits.foldl
    (fun (n, dropped) c =>
      let next := 10 * n + (c.toNat - '0'.toNat)
      if dropped = 0 && next < Nat.pow 2 64 then (next, 0) else (n, dropped + 1))
    (start, 0)
  (n, dropped)

/-- Multiplies or divides once by a power of ten. Below the range of the powers it divides as often
as needed; above it only zero has a result. -/
def scaled (x : Float) (scale : Int) : Option Float :=
  if scale < 0 then
    let k := scale.natAbs
    let steps := min ((k - 1) / 308) 3
    let top := Float.ofScientific 1 false 308
    let y := (List.range steps).foldl (fun y _ => y / top) x
    let rest := k - 308 * steps
    if rest ≤ 308 then some (y / Float.ofScientific 1 false rest) else some 0
  else if x == 0 then some 0
  else if 308 < scale then none
  else
    let y := x * Float.ofScientific 1 false scale.natAbs
    if y.isInf then none else some y

/-- Stored numbers are read through a 64-bit significand, which is rounded to a double before it is
scaled. -/
def ofLiteral? (l : Literal) : Option Float :=
  let (whole, dropped) := capped 0 l.whole
  let (significand, unread) := capped whole l.fraction
  let scale := l.power + dropped - (l.fraction.length - unread : Nat)
  (scaled (Float.ofNat significand) scale).map fun x => if l.negative then -x else x

/-- A number that is not finite has no stored form and is given that of zero. -/
def storedLiteral (x : Float) : Literal :=
  match parts x with
  | .finite negative m => storedLayout.literal negative m
  | _ => storedLayout.literal false .zero

instance : Written Float where
  exact := text exactLayout.literal
  plain := text plainLayout.literal
  fixed places := text (fun negative m => m.fixed negative places)
  scientific places := text (fun negative m => m.scientific negative places)
  read? s := (Numeral.read? s.toList).map ofNumeral
  literal := storedLiteral
  ofLiteral? := ofLiteral?

end Drafting.Double
