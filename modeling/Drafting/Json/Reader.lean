import Drafting.Json

namespace Drafting.Json

open Decimal (Literal Exponent Mark)

def isSpace (c : Char) : Bool := c == ' ' || c == '\t' || c == '\n' || c == '\r'

def skip (s : List Char) : List Char := s.dropWhile isSpace

def hexValue? (c : Char) : Option Nat :=
  if c.isDigit then some (c.toNat - '0'.toNat)
  else if 'a' ≤ c ∧ c ≤ 'f' then some (c.toNat - 'a'.toNat + 10)
  else if 'A' ≤ c ∧ c ≤ 'F' then some (c.toNat - 'A'.toNat + 10)
  else none

def hexValues? (a b c d : Char) : Option Nat := do
  pure (((← hexValue? a) * 16 + (← hexValue? b)) * 256 + (← hexValue? c) * 16 + (← hexValue? d))

/-- The character that a backslash and this one stand for. -/
def unescape? : Char → Option Char
  | '"' => some '"'
  | '\\' => some '\\'
  | '/' => some '/'
  | 'b' => some '\x08'
  | 'f' => some '\x0c'
  | 'n' => some '\n'
  | 'r' => some '\r'
  | 't' => some '\t'
  | _ => none

/-- The code points up to the closing quote, halves of pairs still apart, and what follows. -/
def points? : List Char → Option (List Nat × List Char)
  | [] => none
  | '"' :: r => some ([], r)
  | '\\' :: 'u' :: a :: b :: c :: d :: r => do
    let n ← hexValues? a b c d
    let (ns, r) ← points? r
    pure (n :: ns, r)
  | '\\' :: e :: r => do
    let c ← unescape? e
    let (ns, r) ← points? r
    pure (c.toNat :: ns, r)
  | c :: r => do
    if c.toNat < 0x20 then none
    let (ns, r) ← points? r
    pure (c.toNat :: ns, r)

def isHigh (n : Nat) : Bool := 0xD800 ≤ n && n < 0xDC00

def isLow (n : Nat) : Bool := 0xDC00 ≤ n && n < 0xE000

def paired (high low : Nat) : Char :=
  Char.ofNat (0x10000 + (high - 0xD800) * 0x400 + (low - 0xDC00))

/-- The characters of code points, pairs put together; none if half of a pair is alone. -/
def ofPoints? : List Nat → Option (List Char)
  | [] => some []
  | [n] => if isHigh n || isLow n then none else some [Char.ofNat n]
  | n :: m :: ns =>
    if isHigh n then
      if isLow m then (ofPoints? ns).map (paired n m :: ·) else none
    else if isLow n then none
    else (ofPoints? (m :: ns)).map (Char.ofNat n :: ·)

def string? (s : List Char) : Option (Option String × List Char) :=
  (points? s).map fun (ns, r) => ((ofPoints? ns).map String.ofList, r)

/-- Zero alone, or digits that do not start with it. -/
def whole? : List Char → Option (List Char × List Char)
  | '0' :: r => some (['0'], r)
  | s =>
    let digits := s.takeWhile Char.isDigit
    if digits.isEmpty then none else some (digits, s.dropWhile Char.isDigit)

/-- At least one digit follows a point. -/
def fraction? : List Char → Option (List Char × List Char)
  | '.' :: r =>
    let digits := r.takeWhile Char.isDigit
    if digits.isEmpty then none else some (digits, r.dropWhile Char.isDigit)
  | s => some ([], s)

def mark : List Char → Mark × List Char
  | '-' :: r => (.minus, r)
  | '+' :: r => (.plus, r)
  | r => (.bare, r)

def exponent? : List Char → Option (Option Exponent × List Char)
  | [] => some (none, [])
  | c :: r =>
    if c == 'e' || c == 'E' then
      let (m, s) := mark r
      let digits := s.takeWhile Char.isDigit
      if digits.isEmpty then none else some (some ⟨m, digits⟩, s.dropWhile Char.isDigit)
    else some (none, c :: r)

def unsigned? (negative : Bool) (s : List Char) : Option (Literal × List Char) := do
  let (w, s) ← whole? s
  let (f, s) ← fraction? s
  let (e, s) ← exponent? s
  pure (⟨negative, w, f, e⟩, s)

def number? : List Char → Option (Literal × List Char)
  | '-' :: r => unsigned? true r
  | s => unsigned? false s

/-- Values that are not nested, by their first character. -/
def scalar? : List Char → Option (Json × List Char)
  | 'n' :: 'u' :: 'l' :: 'l' :: r => some (.null, r)
  | 't' :: 'r' :: 'u' :: 'e' :: r => some (.bool true, r)
  | 'f' :: 'a' :: 'l' :: 's' :: 'e' :: r => some (.bool false, r)
  | '"' :: r => (string? r).map fun (s, r) => (.string s, r)
  | s => (number? s).map fun (l, r) => (.number l, r)

mutual

/-- One value and what follows it. Every call reads at least one character, so as much fuel as there
are characters is enough. -/
def value? : (fuel : Nat) → List Char → Option (Json × List Char)
  | 0, _ => none
  | n + 1, s =>
    match skip s with
    | '[' :: r =>
      match skip r with
      | ']' :: r => some (.array [], r)
      | r => do
        let (j, r) ← value? n r
        let (js, r) ← items? n r
        pure (.array (j :: js), r)
    | '\x7b' :: r =>
      match skip r with
      | '\x7d' :: r => some (.object [], r)
      | r => do
        let (m, r) ← member? n r
        let (ms, r) ← members? n r
        pure (.object (m :: ms), r)
    | s => scalar? s

/-- The items after the first, and the closing bracket. -/
def items? : (fuel : Nat) → List Char → Option (List Json × List Char)
  | 0, _ => none
  | n + 1, s =>
    match skip s with
    | ']' :: r => some ([], r)
    | ',' :: r => do
      let (j, r) ← value? n r
      let (js, r) ← items? n r
      pure (j :: js, r)
    | _ => none

def member? : (fuel : Nat) → List Char → Option ((Option String × Json) × List Char)
  | 0, _ => none
  | n + 1, s =>
    match skip s with
    | '"' :: r => do
      let (k, r) ← string? r
      match skip r with
      | ':' :: r =>
        let (j, r) ← value? n r
        pure ((k, j), r)
      | _ => none
    | _ => none

/-- The members after the first, and the closing brace. -/
def members? : (fuel : Nat) → List Char → Option (List (Option String × Json) × List Char)
  | 0, _ => none
  | n + 1, s =>
    match skip s with
    | '\x7d' :: r => some ([], r)
    | ',' :: r => do
      let (m, r) ← member? n r
      let (ms, r) ← members? n r
      pure (m :: ms, r)
    | _ => none

end

/-- A text that holds one value and blanks around it. -/
def read? (s : String) : Option Json := do
  let cs := s.toList
  let (j, r) ← value? (2 * cs.length + 1) cs
  if (skip r).isEmpty then pure j else none

end Drafting.Json
