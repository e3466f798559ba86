import Drafting.Scalar

namespace Drafting.Angle

open Coefficient (ofInt)

variable {K : Type} [Scalar K]

/-- A full turn in radians. -/
def turn : K := ofInt 2 * Scalar.pi

/-- The remainder in `[0, m)` of dividing by a positive `m`, up to rounding. -/
def residue (x m : K) : K :=
  let r := Scalar.rem x m
  if Scalar.lt r (ofInt 0) then r + Scalar.abs m else r

/-- The angle within one turn of `full`. A residue that was rounded up to the turn itself becomes
zero. -/
def wrap (full x : K) : K :=
  let r := residue x full
  if Scalar.le full r then ofInt 0 else r

def wrapRadians (x : K) : K := wrap turn x

def wrapDegrees (x : K) : K := wrap (ofInt 360) x

def toDegrees (x : K) : K := x * (ofInt 180 / Scalar.pi)

def toRadians (x : K) : K := x * (Scalar.pi / ofInt 180)

/-- Of 90 and 270 degrees the nearer one, and 270 if both are as near. -/
def nearestVertical (deg : K) : K :=
  if Scalar.lt (Scalar.abs (ofInt 90 - deg)) (Scalar.abs (ofInt 270 - deg)) then ofInt 90
  else ofInt 270

/-- Of 0 and 180 degrees the nearer one, and 180 if both are as near. A full turn counts as 0. -/
def nearestHorizontal (deg : K) : K :=
  let fromZero := Scalar.lesser (Scalar.abs (ofInt 360 - deg)) (Scalar.abs deg)
  if Scalar.lt fromZero (Scalar.abs (ofInt 180 - deg)) then ofInt 0 else ofInt 180

end Drafting.Angle
