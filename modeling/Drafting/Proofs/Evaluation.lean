import Mathlib.Algebra.BigOperators.Group.List.Lemmas
import Mathlib.Algebra.Ring.Int.Defs
import Mathlib.Tactic.Ring
import Drafting.Proofs.Spanning

namespace Drafting

section Factors

variable {h : Handle}

@[simp] theorem Residual.fn_var : (var h).fn = .identity := rfl

@[simp] theorem Residual.fn_sq : (sq h).fn = .square := rfl

@[simp] theorem Residual.fn_cube : (cube h).fn = .cube := rfl

@[simp] theorem Residual.fn_sin : (sin h).fn = .sin := rfl

@[simp] theorem Residual.fn_cos : (cos h).fn = .cos := rfl

end Factors

variable {R : Type} [CommRing R]

section Trig

variable (sine cosine : R → R) (x : R)

@[simp] theorem TermFn.ofTrig_identity : ofTrig sine cosine .identity x = x := rfl

@[simp] theorem TermFn.ofTrig_square : ofTrig sine cosine .square x = x ^ 2 := (sq x).symm

@[simp] theorem TermFn.ofTrig_cube : ofTrig sine cosine .cube x = x ^ 3 := (pow_three' x).symm

@[simp] theorem TermFn.ofTrig_sin : ofTrig sine cosine .sin x = sine x := rfl

@[simp] theorem TermFn.ofTrig_cos : ofTrig sine cosine .cos x = cosine x := rfl

end Trig

/-- Whole numbers stand for the multiples of one. -/
instance (priority := low) : Coefficient R where
  toAdd := inferInstance
  toMul := inferInstance
  toNeg := inferInstance
  ofInt n := n

variable (fn : TermFn → R → R) (value : Handle → R)

theorem Monomial.evaluateWith_mk (w : R) (ts : List Term) :
    (⟨w, ts⟩ : Monomial R).evaluateWith fn value =
      w * (ts.map fun t => fn t.fn (value t.param)).prod := by
  simp only [evaluateWith]
  induction ts generalizing w with
  | nil => simp
  | cons t ts ih => rw [List.foldl_cons, ih, List.map_cons, List.prod_cons, mul_assoc]

/-- The value of a polynomial as one sum, however it is accumulated. -/
theorem Polynomial.evaluateWith_mk (x : R) (ms : List (Monomial R)) :
    (⟨x, ms⟩ : Polynomial R).evaluateWith fn value =
      x + (ms.map (·.evaluateWith fn value)).sum := by
  simp only [evaluateWith]
  -- the sum of the first products is the constant of the rest
  induction ms generalizing x with
  | nil => simp
  | cons m ms ih => rw [List.foldl_cons, ih, List.map_cons, List.sum_cons, add_assoc]

/-- A whole weight is a multiple of one in any ring. -/
@[simp] theorem Residual.evaluateWith_weighted (w : ℤ) (ts : List Term) :
    (weighted w ts : Monomial R).evaluateWith fn value =
      w * (ts.map fun t => fn t.fn (value t.param)).prod := Monomial.evaluateWith_mk fn value _ ts

/-- What is summed without a constant has the values of its products. -/
@[simp] theorem Residual.evaluateWith_sum (ms : List (Monomial R)) :
    (sum ms).evaluateWith fn value = (ms.map (·.evaluateWith fn value)).sum := by
  have zero : (Coefficient.ofInt 0 : R) = 0 := Int.cast_zero
  rw [sum, Polynomial.evaluateWith_mk, zero, zero_add]

end Drafting
