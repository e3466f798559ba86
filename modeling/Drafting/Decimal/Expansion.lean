import Drafting.Decimal.Literal

namespace Drafting.Decimal

/-- The number `coefficient * 10 ^ exponent`. -/
structure Expansion where
  coefficient : Nat
  exponent : Int
deriving DecidableEq, Repr

/-- A positive number `mantissa * 2 ^ exponent` as a double holds it. -/
structure Binary where
  mantissa : Nat
  exponent : Int
deriving DecidableEq, Repr

def Expansion.ofPower (mantissa : Nat) (exponent : Int) : Expansion :=
  if 0 ≤ exponent then ⟨mantissa * Nat.pow 2 exponent.toNat, 0⟩
  else ⟨mantissa * Nat.pow 5 (-exponent).toNat, exponent⟩

def Binary.expansion (b : Binary) : Expansion :=
  .ofPower b.mantissa b.exponent

namespace Expansion

def digits (d : Expansion) : List Char :=
  Nat.toDigits 10 d.coefficient

/-- The place of the point: the number is `0.d₁d₂… * 10 ^ point`. -/
def point (d : Expansion) : Int :=
  d.digits.length + d.exponent

end Expansion

/-- The quotient to the nearest whole number; a half goes to the even neighbour. -/
def roundDiv (n d : Nat) : Nat :=
  let q := n / d
  let r := n % d
  if 2 * r < d then q
  else if d < 2 * r then q + 1
  else if q % 2 = 0 then q else q + 1

/-- How many units of `10 ^ (-places)` are nearest to the number. -/
def Expansion.units (d : Expansion) (places : Int) : Nat :=
  if 0 ≤ d.exponent + places then d.coefficient * Nat.pow 10 (d.exponent + places).toNat
  else roundDiv d.coefficient (Nat.pow 10 (-(d.exponent + places)).toNat)

/-- Which of two equally near candidates is taken. -/
inductive Tie where
  | up
  | toEven
deriving DecidableEq, Repr

/-- The numbers that round to one value, all counted in the same unit. The ends belong to it if
`closed`. -/
structure Span where
  low : Nat
  value : Nat
  high : Nat
  closed : Bool
deriving Repr

namespace Span

/-- Halfway to both neighbours. Below a power of two the neighbour is nearer, except at the bottom
of the range. -/
def ofBinary (b : Binary) : Span :=
  let at4 (m : Nat) := (Expansion.ofPower m (b.exponent - 2)).coefficient
  let narrow := b.mantissa = Nat.pow 2 52 ∧ -1074 < b.exponent
  ⟨at4 (4 * b.mantissa - if narrow then 1 else 2), at4 (4 * b.mantissa), at4 (4 * b.mantissa + 2),
    b.mantissa % 2 = 0⟩

def holds (s : Span) (n : Nat) : Bool :=
  (s.low < n && n < s.high) || (s.closed && (n == s.low || n == s.high))

/-- The multiple of `grid` in the span that is nearest to the value, counted in grids. -/
def onGrid (s : Span) (tie : Tie) (grid : Nat) : Option Nat :=
  let below := s.value / grid
  match s.holds (below * grid), s.holds ((below + 1) * grid) with
  | false, false => none
  | true, false => some below
  | false, true => some (below + 1)
  | true, true =>
    match compare (2 * s.value) ((2 * below + 1) * grid) with
    | .lt => some below
    | .gt => some (below + 1)
    | .eq =>
      match tie with
      | .up => some (below + 1)
      | .toEven => some (if below % 2 = 0 then below else below + 1)

/-- The coarsest grid `10 ^ k`, `k ≤ dropped`, with a point in the span: that point and `k`. -/
def coarsest (s : Span) (tie : Tie) : (dropped : Nat) → Nat × Nat
  | 0 => (s.value, 0)
  | k + 1 =>
    match s.onGrid tie (Nat.pow 10 (k + 1)) with
    | some n => (n, k + 1)
    | none => s.coarsest tie k

end Span

/-- The fewest digits that read back as the number, and of those the nearest. -/
def Binary.shortest (b : Binary) (tie : Tie) : Expansion :=
  let whole := Expansion.ofPower (4 * b.mantissa) (b.exponent - 2)
  let (n, k) := (Span.ofBinary b).coarsest tie (whole.digits.length - 1)
  ⟨n, whole.exponent + k⟩

end Drafting.Decimal
