import Drafting.Double
import Drafting.Proofs.Exact
import Drafting.Proofs.Renaming

namespace Drafting.Polynomial

open Coefficient (ofInt)

variable {K : Type}

inductive Call (K : Type) where
  | product (weight : K)
  | factor (t : Term)

namespace Call

variable [Coefficient K]

def run (p : Polynomial K) : Call K → Polynomial K
  | .product w => p.monomial w
  | .factor t => p.term t

end Call

def built [Coefficient K] (x : K) (calls : List (Call K)) : Polynomial K :=
  calls.foldl Call.run (const x)

/-- The factors before the first product. -/
def leading : List (Call K) → List Term
  | .factor t :: calls => t :: leading calls
  | _ => []

/-- Each product with the factors between it and the next one. -/
def products : List (Call K) → List (Monomial K)
  | [] => []
  | .product w :: calls => ⟨w, leading calls⟩ :: products calls
  | .factor _ :: calls => products calls

/-- Factors without a product have one of weight one. -/
def opened [Coefficient K] : List Term → List (Monomial K)
  | [] => []
  | t :: ts => [⟨ofInt 1, t :: ts⟩]

def factors (calls : List (Call K)) : List Term :=
  calls.filterMap fun
    | .product _ => none
    | .factor t => some t

section Building

variable [Coefficient K]

theorem extendLast_concat (t : Term) (ms : List (Monomial K)) (m : Monomial K) :
    extendLast t (ms ++ [m]) = ms ++ [{ m with terms := m.terms ++ [t] }] := by
  induction ms with
  | nil => rfl
  | cons n ms ih =>
    cases ms with
    | nil => rfl
    | cons n' ms => exact congrArg (n :: ·) ih

/-- Only the last product grows, until the next one is called for. -/
theorem foldl_run (x : K) (ms : List (Monomial K)) (m : Monomial K) (calls : List (Call K)) :
    calls.foldl Call.run ⟨x, ms ++ [m]⟩ =
      ⟨x, ms ++ [{ m with terms := m.terms ++ leading calls }] ++ products calls⟩ := by
  induction calls generalizing ms m with
  | nil => simp [leading, products]
  | cons call calls ih =>
    cases call with
    | product w =>
      refine (ih (ms ++ [m]) ⟨w, []⟩).trans ?_
      simp [leading, products]
    | factor t =>
      have step : Call.run ⟨x, ms ++ [m]⟩ (.factor t) =
          ⟨x, ms ++ [{ m with terms := m.terms ++ [t] }]⟩ :=
        congrArg (Polynomial.mk x) (extendLast_concat t ms m)
      rw [List.foldl_cons, step, ih]
      simp [leading, products]

/-- However products and factors are mixed, what comes of them is read off the calls at once. -/
theorem built_eq (x : K) (calls : List (Call K)) :
    built x calls = ⟨x, opened (leading calls) ++ products calls⟩ := by
  cases calls with
  | nil => rfl
  | cons call calls =>
    cases call with
    | product w => exact foldl_run x [] ⟨w, []⟩ calls
    | factor t => exact foldl_run x [] ⟨ofInt 1, [t]⟩ calls

theorem terms_opened (ts : List Term) :
    (opened ts : List (Monomial K)).flatMap Monomial.terms = ts := by
  cases ts with
  | nil => rfl
  | cons t ts => exact List.append_nil _

omit [Coefficient K] in
theorem leading_append_products (calls : List (Call K)) :
    leading calls ++ (products calls).flatMap Monomial.terms = factors calls := by
  induction calls with
  | nil => rfl
  | cons call calls ih =>
    cases call with
    | product w => exact ih
    | factor t => exact congrArg (t :: ·) ih

/-- No factor is lost, and none comes before one that was called for earlier. -/
theorem occurrences_built (x : K) (calls : List (Call K)) :
    (built x calls).occurrences = (factors calls).map Term.param := by
  rw [occurrences, built_eq, ← List.map_flatMap, List.flatMap_append, terms_opened,
    leading_append_products]

end Building

def factorValue [Scalar K] (value : Handle → K) (t : Term) : K := t.fn.apply (value t.param)

section Exact

variable (value : Handle → ℝ)

/-- In exact arithmetic a polynomial is its constant with the weighted products. -/
theorem evaluate_eq_sum (p : Polynomial ℝ) : p.evaluate value =
    p.constant + (p.monomials.map fun m =>
      m.coefficient * (m.terms.map (factorValue value)).prod).sum := by
  rw [Exact.evaluate_eq, evaluateWith_mk]
  refine congrArg (p.constant + ·) (congrArg List.sum (List.map_congr_left fun m _ => ?_))
  exact Monomial.evaluateWith_mk _ _ _ _

/-- The factors before the first product are one more product, if there are any. -/
theorem evaluate_built (x : ℝ) (calls : List (Call ℝ)) : (built x calls).evaluate value =
    x + (if leading calls = [] then 0 else ((leading calls).map (factorValue value)).prod) +
      ((products calls).map fun m =>
        m.coefficient * (m.terms.map (factorValue value)).prod).sum := by
  have one : (ofInt 1 : ℝ) = 1 := Int.cast_one
  rw [evaluate_eq_sum, built_eq, List.map_append, List.sum_append, add_assoc]
  congr 2
  cases leading calls with
  | nil => rfl
  | cons t ts => simp [opened, one]

end Exact

/-- Whatever is called for, in any order, the polynomial is the constant with each product and the
factors that follow it, after one of weight one if factors came first. Its parameters are those of
its factors, each once, in the order of their first occurrence; valuations that agree on them give
the same value; and in exact arithmetic that is the constant and the sum of the weighted
products. -/
theorem params_exact [Scalar K] (x : K) (calls : List (Call K)) :
    built x calls = ⟨x, opened (leading calls) ++ products calls⟩ ∧
    ((built x calls).occurrences = (factors calls).map Term.param ∧
      (built x calls).params.Nodup ∧
      FirstsOf (built x calls).params (built x calls).occurrences) ∧
    (∀ v w : Handle → K, (∀ h ∈ (built x calls).params, v h = w h) →
      (built x calls).evaluate v = (built x calls).evaluate w) ∧
    ∀ (y : ℝ) (called : List (Call ℝ)) (value : Handle → ℝ), (built y called).evaluate value =
      y + (if leading called = [] then 0 else ((leading called).map (factorValue value)).prod) +
        ((products called).map fun m =>
          m.coefficient * (m.terms.map (factorValue value)).prod).sum := by
  have firsts := (built x calls).firstsOf_params
  refine ⟨built_eq x calls, ⟨occurrences_built x calls, firsts.nodup, firsts⟩, fun v w agree => ?_,
    fun y called value => evaluate_built value y called⟩
  exact evaluate_congr (built x calls).over_params agree

def scattered : List (Call Float) :=
  [.factor ⟨⟨2, 1⟩, .identity⟩, .product 2, .factor ⟨⟨1, 1⟩, .square⟩, .factor ⟨⟨2, 1⟩, .sin⟩,
    .product (-1)]

/-- Other parameters may be missing. -/
theorem params_exact_scattered :
    (built 1 scattered).params = [⟨2, 1⟩, ⟨1, 1⟩] ∧
      (built 1 scattered).evaluate (fun h => if h.slot = 9 then Double.nan else 3) =
        (built 1 scattered).evaluate fun _ => 3 := by
  have listed : (built 1 scattered).params = [⟨2, 1⟩, ⟨1, 1⟩] := by decide +kernel
  obtain ⟨-, -, agrees, -⟩ := params_exact 1 scattered
  exact ⟨listed, agrees _ _ (by simp [listed])⟩

end Drafting.Polynomial
