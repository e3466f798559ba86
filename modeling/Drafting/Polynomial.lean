import Drafting.Param
import Drafting.Written

namespace Drafting

open Coefficient (ofInt)

inductive TermFn where
  | identity
  | square
  | cube
  | sin
  | cos
deriving DecidableEq, Repr

namespace TermFn

/-- The function, for given sines and cosines. -/
def ofTrig {K : Type} [Mul K] (sine cosine : K → K) : TermFn → K → K
  | .identity, x => x
  | .square, x => x * x
  | .cube, x => x * x * x
  | .sin, x => sine x
  | .cos, x => cosine x

variable {K : Type} [Scalar K]

def apply : TermFn → K → K := ofTrig Scalar.sin Scalar.cos

def derivative : TermFn → K → K
  | .identity, _ => ofInt 1
  | .square, x => ofInt 2 * x
  | .cube, x => ofInt 3 * x * x
  | .sin, x => Scalar.cos x
  | .cos, x => -Scalar.sin x

def text (fn : TermFn) (arg : String) : String :=
  match fn with
  | .identity => arg
  | .square => s!"{arg}^2"
  | .cube => s!"{arg}^3"
  | .sin => s!"sin({arg})"
  | .cos => s!"cos({arg})"

end TermFn

structure Term where
  param : Handle
  fn : TermFn
deriving DecidableEq, Repr

structure Monomial (K : Type) where
  coefficient : K
  terms : List Term
deriving DecidableEq, Repr

structure Polynomial (K : Type) where
  constant : K
  monomials : List (Monomial K)
deriving DecidableEq, Repr

def Term.text (t : Term) : String := t.fn.text s!"ParamId({t.param.text})"

namespace Monomial

def evaluateWith {K : Type} [Mul K] (fn : TermFn → K → K) (value : Handle → K)
    (m : Monomial K) : K :=
  m.terms.foldl (fun acc t => acc * fn t.fn (value t.param)) m.coefficient

def evaluate {K : Type} [Scalar K] (value : Handle → K) (m : Monomial K) : K :=
  m.evaluateWith TermFn.apply value

/-- A zero of either sign and a missing coefficient are written with a plus. -/
def text {K : Type} [Scalar K] [Written K] (m : Monomial K) : String :=
  let sign := if Scalar.lt m.coefficient (ofInt 0) then "-" else "+"
  let factors := String.join (m.terms.map fun t => "·" ++ t.text)
  s!" {sign} {Written.plain (Scalar.abs m.coefficient)}{factors}"

end Monomial

namespace Polynomial

variable {K : Type}

def const (c : K) : Polynomial K := ⟨c, []⟩

/-- Starts a new product. -/
def monomial (p : Polynomial K) (coefficient : K) : Polynomial K :=
  { p with monomials := p.monomials ++ [⟨coefficient, []⟩] }

/-- Multiplies the last product; a factor without a product starts one of weight one. -/
def extendLast [Coefficient K] (t : Term) : List (Monomial K) → List (Monomial K)
  | [] => [⟨ofInt 1, [t]⟩]
  | [m] => [{ m with terms := m.terms ++ [t] }]
  | m :: n :: ms => m :: extendLast t (n :: ms)

def term [Coefficient K] (p : Polynomial K) (t : Term) : Polynomial K :=
  { p with monomials := extendLast t p.monomials }

def evaluateWith [Add K] [Mul K] (fn : TermFn → K → K) (value : Handle → K)
    (p : Polynomial K) : K :=
  p.monomials.foldl (fun acc m => acc + m.evaluateWith fn value) p.constant

def evaluate [Scalar K] (value : Handle → K) (p : Polynomial K) : K :=
  p.evaluateWith TermFn.apply value

/-- The members of a list in the order of their first occurrence, after those already seen. -/
def firsts (seen : List Handle) : List Handle → List Handle
  | [] => seen
  | h :: hs => firsts (if h ∈ seen then seen else seen ++ [h]) hs

/-- The parameters referred to, in order of first use. -/
def params (p : Polynomial K) : List Handle :=
  firsts [] (p.monomials.flatMap fun m => m.terms.map Term.param)

def isEmpty (p : Polynomial K) : Bool := p.monomials.isEmpty

def text [Scalar K] [Written K] (p : Polynomial K) : String :=
  Written.plain p.constant ++ String.join (p.monomials.map Monomial.text)

end Polynomial

end Drafting
