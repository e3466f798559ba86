import Drafting.Angle

namespace Drafting

open Coefficient (ofInt)

/-- A point, or the step from one point to another. -/
@[ext] structure Vec (K : Type) where
  x : K
  y : K
deriving Repr

namespace Vec

variable {K : Type} [Scalar K]

def add (u v : Vec K) : Vec K := ⟨u.x + v.x, u.y + v.y⟩

def sub (u v : Vec K) : Vec K := ⟨u.x - v.x, u.y - v.y⟩

def scale (u : Vec K) (k : K) : Vec K := ⟨u.x * k, u.y * k⟩

def shrink (u : Vec K) (k : K) : Vec K := ⟨u.x / k, u.y / k⟩

def dot (u v : Vec K) : K := u.x * v.x + u.y * v.y

def norm (u : Vec K) : K := Scalar.sqrt (u.dot u)

/-- The direction of a step, within one turn. -/
def direction (u : Vec K) : K := Angle.wrapRadians (Scalar.atan2 u.y u.x)

end Vec

/-- A line by its unit normal and its offset along it. -/
structure Line (K : Type) where
  ang : K
  nx : K
  ny : K
  w : K

namespace Line

variable {K : Type} [Scalar K]

/-- The line through `anchor` in direction `ang`. -/
def through (ang : K) (anchor : Vec K) : Line K :=
  let nx := -Scalar.sin ang
  let ny := Scalar.cos ang
  ⟨ang, nx, ny, nx * anchor.x + ny * anchor.y⟩

/-- Positive on the side that the normal points to. -/
def signedDistance (l : Line K) (p : Vec K) : K := l.nx * p.x + l.ny * p.y - l.w

end Line

/-- The reflection across the line through `origin` with unit normal `normal`. -/
structure Reflection (K : Type) where
  origin : Vec K
  normal : Vec K

namespace Reflection

variable {K : Type} [Scalar K]

/-- The spacing of doubles at one: a step no longer than this has no direction. -/
def shortest : K := ofInt 1 / ofInt (Nat.pow 2 52)

/-- Across the line through two points, unless they are as good as one. -/
def across? (a b : Vec K) : Option (Reflection K) :=
  let d := b.sub a
  let normal : Vec K := ⟨-d.y, d.x⟩
  let n := normal.norm
  if Scalar.le n shortest then none else some ⟨a, normal.shrink n⟩

def apply (r : Reflection K) (p : Vec K) : Vec K :=
  let along := r.normal.dot (p.sub r.origin)
  p.sub (r.normal.scale (ofInt 2 * along))

end Reflection

/-- The corners of a rectangle, counter-clockwise from `(x, y)`. -/
def rectangle {K : Type} [Scalar K] (x y w h : K) : List (Vec K) :=
  [⟨x, y⟩, ⟨x + w, y⟩, ⟨x + w, y + h⟩, ⟨x, y + h⟩]

/-- The corners of a regular polygon in a circle, counter-clockwise from the direction of `x`. -/
def regularPolygon {K : Type} [Scalar K] (center : Vec K) (r : K) (sides : Nat) : List (Vec K) :=
  (List.range sides).map fun (i : Nat) =>
    let a := Angle.turn * ofInt i / ofInt sides
    ⟨center.x + r * Scalar.cos a, center.y + r * Scalar.sin a⟩

end Drafting
