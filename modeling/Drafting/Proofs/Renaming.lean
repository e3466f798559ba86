import Drafting.Proofs.Spanning
import Mathlib.Data.List.Basic

namespace Drafting

open Constant (Resolved)

variable {K : Type}

def Term.rename (f : Handle → Handle) (t : Term) : Term := { t with param := f t.param }

def Monomial.rename (f : Handle → Handle) (m : Monomial K) : Monomial K :=
  { m with terms := m.terms.map (Term.rename f) }

def Polynomial.rename (f : Handle → Handle) (p : Polynomial K) : Polynomial K :=
  { p with monomials := p.monomials.map (Monomial.rename f) }

section Values

variable [Scalar K] {hs : List Handle} {v w : Handle → K} {f : Handle → Handle}

theorem Monomial.evaluate_rename (m : Monomial K) :
    (m.rename f).evaluate v = m.evaluate (v ∘ f) := by
  rw [evaluate, evaluateWith, rename, List.foldl_map]
  rfl

/-- Renaming parameters is valuing them by their new names. -/
theorem Polynomial.evaluate_rename (p : Polynomial K) :
    (p.rename f).evaluate v = p.evaluate (v ∘ f) := by
  rw [evaluate, evaluateWith, rename, List.foldl_map]
  have each (m : Monomial K) : (m.rename f).evaluateWith TermFn.apply v =
      m.evaluateWith TermFn.apply (v ∘ f) := m.evaluate_rename
  simp only [each]
  rfl

theorem Monomial.evaluate_congr {m : Monomial K} (within : m.Over hs)
    (same : ∀ h ∈ hs, v h = w h) : m.evaluate v = m.evaluate w :=
  List.foldl_ext _ _ _ fun x t ht => by rw [same t.param (within t ht)]

/-- Only the parameters that it refers to count for the value of a polynomial. -/
theorem Polynomial.evaluate_congr {p : Polynomial K} (within : p.Over hs)
    (same : ∀ h ∈ hs, v h = w h) : p.evaluate v = p.evaluate w :=
  List.foldl_ext _ _ _ fun x m hm => congrArg (x + ·) (Monomial.evaluate_congr (within m hm) same)

end Values

def places (n : Nat) : List Handle := (List.range n).map fun i => ⟨i, 0⟩

theorem length_places (n : Nat) : (places n).length = n := by
  rw [places, List.length_map, List.length_range]

theorem exists_map_places (hs : List Handle) : ∃ f, (places hs.length).map f = hs := by
  refine ⟨fun h => hs[h.slot]?.getD h, ?_⟩
  refine List.ext_getElem (by simp [places]) fun i hi hi' => ?_
  simp [places, hi']

variable [Scalar K]

/-- The residuals of a kind are written over places, whatever stands there. -/
theorem Kind.residuals?_map {k : Kind} {hs : List Handle} (length : hs.length = k.scopeSize)
    (f : Handle → Handle) (r : Resolved K) :
    k.residuals? (hs.map f) r = (k.residuals? hs r).map (List.map (Polynomial.rename f)) := by
  cases k with
  | mirror => rfl
  | angle | vertical | horizontal | segmentLength | radiusLength =>
    match hs, length with
    | [_], _ => rfl
  | angleBetween | perpendicular | parallel | equalRadius | equalLength | lockPoint =>
    match hs, length with
    | [_, _], _ => rfl
  | pCoincident | distancePP =>
    match hs, length with
    | [_, _, _, _], _ => rfl
  | pointOnLine | pointOnCircle | distancePL =>
    match hs, length with
    | [_, _, _, _, _], _ => rfl
  | pointInMiddle | tangentLC | polar | segmentConsistency =>
    match hs, length with
    | [_, _, _, _, _, _], _ => rfl
  | symmetry =>
    match hs, length with
    | [_, _, _, _, _, _, _], _ => rfl
  | arcConsistency | fillet =>
    match hs, length with
    | [_, _, _, _, _, _, _, _, _], _ => rfl
  | pointOnEllipse =>
    match hs, length with
    | [_, _, _, _, _, _, _, _, _, _], _ => rfl
  | pointOnBezier =>
    match hs, length with
    | [_, _, _, _, _, _, _, _, _, _, _], _ => rfl
  | tangentLineBezier =>
    match hs, length with
    | [_, _, _, _, _, _, _, _, _, _, _, _, _, _, _, _], _ => rfl

/-- Scopes with the same values place by place have residuals with the same values. -/
theorem Kind.exists_residuals {k : Kind} {hs ks : List Handle} {v w : Handle → K}
    (length : hs.length = k.scopeSize) (same : hs.map v = ks.map w) (r : Resolved K) :
    ∃ ps qs, k.residuals? hs r = some ps ∧ k.residuals? ks r = some qs ∧
      ps.map (·.evaluate v) = qs.map (·.evaluate w) := by
  have length' : ks.length = k.scopeSize := by
    simpa [length] using (congrArg List.length same).symm
  obtain ⟨f, rfl⟩ : ∃ f, (places k.scopeSize).map f = hs := length ▸ exists_map_places hs
  obtain ⟨g, rfl⟩ : ∃ g, (places k.scopeSize).map g = ks := length' ▸ exists_map_places ks
  obtain ⟨make, spans⟩ := exists_spans (K := K) (length_places k.scopeSize)
  have agree : ∀ h ∈ places k.scopeSize, v (f h) = w (g h) := by
    rw [List.map_map, List.map_map] at same
    exact List.map_inj_left.mp same
  refine ⟨(make r).map (.rename f), (make r).map (.rename g), ?_, ?_, ?_⟩
  · rw [residuals?_map (length_places _), spans.residuals, Option.map_some]
  · rw [residuals?_map (length_places _), spans.residuals, Option.map_some]
  · rw [List.map_map, List.map_map]
    refine List.map_congr_left fun p hp => ?_
    calc (p.rename f).evaluate v
      _ = p.evaluate (v ∘ f) := p.evaluate_rename
      _ = p.evaluate (w ∘ g) := Polynomial.evaluate_congr (spans.within r p hp) agree
      _ = (p.rename g).evaluate w := p.evaluate_rename.symm

end Drafting
