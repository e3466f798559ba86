import Drafting.Decimal.Expansion

namespace Drafting.Decimal

/-- The decisions of one way to write numbers. -/
structure Layout where
  tie : Tie
  /-- The powers of ten of the first digit that are written without an exponent: from the first up
  to, not including, the second. All of them if not given. -/
  positional : Option (Int × Int)
  /-- A whole number ends in `.0` where no exponent is written. -/
  pointZero : Bool
  /-- The mark of an exponent that is not negative. -/
  mark : Mark
deriving Repr

/-- A number apart from the missing one and the infinities. -/
inductive Magnitude where
  | zero
  | positive (b : Binary)
deriving Repr

namespace Layout

def trim (digits : List Char) : List Char :=
  (digits.reverse.dropWhile (· == '0')).reverse

/-- Digits set around the point that stands after the first `point` of them. -/
def around (l : Layout) (digits : List Char) (point : Int) : List Char × List Char :=
  if point ≤ 0 then (['0'], List.replicate (-point).toNat '0' ++ digits)
  else
    let whole := digits.take point.toNat
    let fraction := digits.drop point.toNat
    (whole ++ List.replicate (point.toNat - digits.length) '0',
      if fraction.isEmpty && l.pointZero then ['0'] else fraction)

def isPositional (l : Layout) (power : Int) : Bool :=
  match l.positional with
  | none => true
  | some (low, high) => low ≤ power && power < high

def exponent (l : Layout) (power : Int) : Exponent :=
  ⟨if power < 0 then .minus else l.mark, Nat.toDigits 10 power.natAbs⟩

def literal (l : Layout) (negative : Bool) : Magnitude → Literal
  | .zero => ⟨negative, ['0'], if l.pointZero then ['0'] else [], none⟩
  | .positive b =>
    let d := b.shortest l.tie
    let digits := trim d.digits
    let point := d.point
    if l.isPositional (point - 1) then
      let (whole, fraction) := l.around digits point
      ⟨negative, whole, fraction, none⟩
    else ⟨negative, digits.take 1, digits.drop 1, some (l.exponent (point - 1))⟩

end Layout

namespace Magnitude

/-- Exactly `places` digits after the point, to nearest, a half to the even neighbour. -/
def fixed (negative : Bool) (places : Nat) (m : Magnitude) : Literal :=
  let units :=
    match m with
    | .zero => 0
    | .positive b => b.expansion.units places
  let digits := Nat.toDigits 10 units
  let padded := List.replicate (places + 1 - digits.length) '0' ++ digits
  let whole := padded.length - places
  ⟨negative, padded.take whole, padded.drop whole, none⟩

/-- One digit before the point and exactly `places` after it, rounded like `fixed`. -/
def scientific (negative : Bool) (places : Nat) : Magnitude → Literal
  | .zero => ⟨negative, ['0'], List.replicate places '0', some ⟨.bare, ['0']⟩⟩
  | .positive b =>
    let d := b.expansion
    let power := d.point - 1
    let digits := Nat.toDigits 10 (d.units (places - power))
    let carry : Int := (digits.length - (places + 1) : Nat)
    let power := power + carry
    ⟨negative, digits.take 1, (digits.drop 1).take places,
      some ⟨if power < 0 then .minus else .bare, Nat.toDigits 10 power.natAbs⟩⟩

end Magnitude

end Drafting.Decimal
