import Drafting.Kind.Residuals
import Mathlib.Data.List.Basic

namespace Drafting

open Constant (Definition Resolved)

variable {K : Type}

def Monomial.Over (hs : List Handle) (m : Monomial K) : Prop := ∀ t ∈ m.terms, t.param ∈ hs

def Polynomial.Over (hs : List Handle) (p : Polynomial K) : Prop := ∀ m ∈ p.monomials, m.Over hs

namespace Polynomial

/-- The members of `past`, each once, in the order of their first occurrence. -/
structure FirstsOf (seen past : List Handle) : Prop where
  mem : ∀ h, h ∈ seen ↔ h ∈ past
  rising : seen.Pairwise fun g h => past.idxOf g < past.idxOf h

namespace FirstsOf

variable {seen past : List Handle}

theorem nodup (f : FirstsOf seen past) : seen.Nodup :=
  f.rising.imp fun {g h} less (same : g = h) => Nat.ne_of_lt less (congrArg past.idxOf same)

/-- One more occurrence is a first one or was seen, and neither moves what came before. -/
theorem snoc (f : FirstsOf seen past) (h : Handle) :
    FirstsOf (if h ∈ seen then seen else seen ++ [h]) (past ++ [h]) := by
  have rising : seen.Pairwise fun g k => (past ++ [h]).idxOf g < (past ++ [h]).idxOf k := by
    refine f.rising.imp_of_mem fun {g k} hg hk less => ?_
    rwa [List.idxOf_append_of_mem ((f.mem g).mp hg), List.idxOf_append_of_mem ((f.mem k).mp hk)]
  split
  · rename_i known
    refine ⟨fun k => ?_, rising⟩
    rw [List.mem_append, List.mem_singleton, f.mem k]
    refine ⟨.inl, ?_⟩
    rintro (old | rfl)
    · exact old
    · exact (f.mem k).mp known
  · rename_i new
    refine ⟨fun k => ?_, List.pairwise_append.mpr ⟨rising, List.pairwise_singleton _ h, ?_⟩⟩
    · rw [List.mem_append, List.mem_append, f.mem k]
    · intro g hg k hk
      obtain rfl := List.mem_singleton.mp hk
      have known := (f.mem g).mp hg
      rw [List.idxOf_append_of_mem known,
        List.idxOf_append_of_notMem fun old => new ((f.mem k).mpr old), List.idxOf_cons_self]
      exact List.idxOf_lt_length_of_mem known

/-- Going on from what was seen keeps the order of first occurrence. -/
theorem firsts (f : FirstsOf seen past) (hs : List Handle) :
    FirstsOf (firsts seen hs) (past ++ hs) := by
  induction hs generalizing seen past with
  | nil => rwa [List.append_nil]
  | cons h hs ih =>
    have split : past ++ h :: hs = (past ++ [h]) ++ hs := by simp
    rw [split]
    exact ih (f.snoc h)

end FirstsOf

/-- The parameters of all factors, as often as they stand there. -/
def occurrences (p : Polynomial K) : List Handle :=
  p.monomials.flatMap fun m => m.terms.map Term.param

/-- The parameters of a polynomial are its occurrences without the repetitions. -/
theorem firstsOf_params (p : Polynomial K) : FirstsOf p.params p.occurrences :=
  FirstsOf.firsts ⟨fun _ => Iff.rfl, .nil⟩ p.occurrences

theorem over_params (p : Polynomial K) : p.Over p.params := by
  intro m hm t ht
  rw [p.firstsOf_params.mem]
  exact List.mem_flatMap.mpr ⟨m, hm, List.mem_map_of_mem ht⟩

theorem Over.params {p : Polynomial K} {hs : List Handle} (within : p.Over hs) :
    ∀ h ∈ p.params, h ∈ hs := by
  intro h hh
  rw [p.firstsOf_params.mem] at hh
  obtain ⟨m, hm, hh⟩ := List.mem_flatMap.mp hh
  obtain ⟨t, ht, rfl⟩ := List.mem_map.mp hh
  exact within m hm t ht

end Polynomial

section Over

variable {h : Handle} {hs : List Handle} {ts : List Term} {ms : List (Monomial K)} {x : K}

@[simp] theorem Residual.param_var : (var h).param = h := rfl

@[simp] theorem Residual.param_sq : (sq h).param = h := rfl

@[simp] theorem Residual.param_cube : (cube h).param = h := rfl

@[simp] theorem Residual.param_sin : (sin h).param = h := rfl

@[simp] theorem Residual.param_cos : (cos h).param = h := rfl

@[simp] theorem Monomial.over_mk : (⟨x, ts⟩ : Monomial K).Over hs ↔ ∀ t ∈ ts, t.param ∈ hs :=
  Iff.rfl

@[simp] theorem Polynomial.over_mk : (⟨x, ms⟩ : Polynomial K).Over hs ↔ ∀ m ∈ ms, m.Over hs :=
  Iff.rfl

variable [Coefficient K]

@[simp] theorem Monomial.over_weighted {w : Int} :
    (Residual.weighted w ts : Monomial K).Over hs ↔ ∀ t ∈ ts, t.param ∈ hs := Iff.rfl

@[simp] theorem Polynomial.over_sum : (Residual.sum ms).Over hs ↔ ∀ m ∈ ms, m.Over hs := Iff.rfl

end Over

namespace Kind

/-- How many residuals a kind has. -/
def residualCount : Kind → Nat
  | .mirror => 0
  | .pCoincident | .symmetry | .lockPoint | .polar | .segmentConsistency | .fillet
  | .pointOnBezier => 2
  | .arcConsistency | .pointOnEllipse => 4
  | .tangentLineBezier => 6
  | _ => 1

end Kind

variable [Scalar K]

/-- Two sets of resolved constants have the same constant of a definition, looked up as what it is
defined to be. -/
def Constant.Definition.Agrees (d : Definition) (r r' : Resolved K) : Prop :=
  match d.form with
  | .number => r.number d.name = r'.number d.name
  | .flag => r.flag d.name = r'.flag d.name

/-- What a kind makes of a scope: as many residuals as it has, over the scope, and of no constants
but those it defines. -/
structure Kind.Spans (k : Kind) (params : List Handle) (f : Resolved K → List (Polynomial K)) :
    Prop where
  residuals : ∀ r, k.residuals? params r = some (f r)
  count : ∀ r, (f r).length = k.residualCount
  within : ∀ r, ∀ p ∈ f r, p.Over params
  looks : ∀ r r', (∀ d ∈ k.definitions, d.Agrees r r') → f r = f r'

/-- Of a kind without constants only the scope counts. -/
theorem Kind.Spans.fixed {k : Kind} {params : List Handle} {ps : List (Polynomial K)}
    (residuals : ∀ r, k.residuals? params r = some ps) (count : ps.length = k.residualCount)
    (within : ∀ p ∈ ps, p.Over params) : ∃ f : Resolved K → List (Polynomial K), k.Spans params f :=
  ⟨fun _ => ps, residuals, fun _ => count, fun _ => within, fun _ _ _ => rfl⟩

open Residual in
/-- Each kind has its residuals over a scope of its size, and no constant of another kind is looked
at. -/
theorem Kind.exists_spans {k : Kind} {params : List Handle} (h : params.length = k.scopeSize) :
    ∃ f : Resolved K → List (Polynomial K), k.Spans params f := by
  cases k with
  | pCoincident =>
    match params, h with
    | [x1, y1, x2, y2], _ =>
      exact Spans.fixed (fun _ => rfl) rfl (by simp [coincident, difference])
  | tangentLC =>
    match params, h with
    | [ang, ax, ay, cx, cy, rad], _ =>
      refine ⟨_, fun _ => rfl, fun _ => rfl, fun r => ?_, fun r r' agree => ?_⟩
      · simp [tangent, signedDistance]
      · have inverted : r.flag "inverted" = r'.flag "inverted" := agree _ (.head _)
        simp only [inverted]
  | pointOnLine =>
    match params, h with
    | [x, y, ax, ay, ang], _ =>
      exact Spans.fixed (fun _ => rfl) rfl (by simp [Residual.pointOnLine, signedDistance])
  | pointOnCircle =>
    match params, h with
    | [x, y, cx, cy, rad], _ =>
      exact Spans.fixed (fun _ => rfl) rfl (by simp [Residual.pointOnCircle, squaredDistance])
  | pointOnBezier =>
    match params, h with
    | [p0x, p0y, p3x, p3y, p1x, p1y, p2x, p2y, t, px, py], _ =>
      exact Spans.fixed (fun _ => rfl) rfl (by simp [Residual.pointOnBezier, bezier])
  | tangentLineBezier =>
    match params, h with
    | [p0x, p0y, p3x, p3y, p1x, p1y, p2x, p2y, t, px, py, nx, ny, ang, ax, ay], _ =>
      exact Spans.fixed (fun _ => rfl) rfl
        (by simp [Residual.tangentLineBezier, bezier, bezierFirst, Residual.pointOnLine,
          signedDistance])
  | pointOnEllipse =>
    match params, h with
    | [e1x, e1y, e2x, e2y, rad, theta, psi, l, px, py], _ =>
      exact Spans.fixed (fun _ => rfl) rfl (by simp [Residual.pointOnEllipse])
  | pointInMiddle =>
    match params, h with
    | [x1, y1, x2, y2, x3, y3], _ =>
      exact Spans.fixed (fun _ => rfl) rfl (by simp [Residual.pointInMiddle])
  | symmetry =>
    match params, h with
    | [x1, y1, x2, y2, x3, y3, ang], _ =>
      exact Spans.fixed (fun _ => rfl) rfl
        (by simp [Residual.symmetry, Residual.pointInMiddle, Residual.pointOnLine, signedDistance])
  | distancePP =>
    match params, h with
    | [x1, y1, x2, y2], _ =>
      refine ⟨_, fun _ => rfl, fun _ => rfl, fun r => ?_, fun r r' agree => ?_⟩
      · simp [Residual.distancePP, squaredDistance]
      · have distance : r.number "distance" = r'.number "distance" := agree _ (.head _)
        simp only [distance]
  | distancePL =>
    match params, h with
    | [x, y, ang, ax, ay], _ =>
      refine ⟨_, fun _ => rfl, fun _ => rfl, fun r => ?_, fun r r' agree => ?_⟩
      · simp [Residual.distancePL, signedDistance]
      · have distance : r.number "distance" = r'.number "distance" := agree _ (.head _)
        have inverted : r.flag "inverted" = r'.flag "inverted" := agree _ (.tail _ (.head _))
        simp only [distance, inverted]
  | angle | vertical | horizontal =>
    match params, h with
    | [ang], _ =>
      refine ⟨_, fun _ => rfl, fun _ => rfl, fun r => ?_, fun r r' agree => ?_⟩
      · simp [offset]
      · have angle : r.number "angle" = r'.number "angle" := agree _ (.head _)
        simp only [angle]
  | angleBetween | perpendicular | parallel =>
    match params, h with
    | [ang1, ang2], _ =>
      refine ⟨_, fun _ => rfl, fun _ => rfl, fun r => ?_, fun r r' agree => ?_⟩
      · simp [Residual.angleBetween]
      · have angle : r.number "angle" = r'.number "angle" := agree _ (.head _)
        simp only [angle]
  | segmentLength | radiusLength =>
    match params, h with
    | [t], _ =>
      refine ⟨_, fun _ => rfl, fun _ => rfl, fun r => ?_, fun r r' agree => ?_⟩
      · simp [offset]
      · have length : r.number "length" = r'.number "length" := agree _ (.head _)
        simp only [length]
  | polar | segmentConsistency =>
    match params, h with
    | [ang, t, x1, y1, x2, y2], _ =>
      exact Spans.fixed (fun _ => rfl) rfl (by simp [Residual.polar])
  | equalRadius | equalLength =>
    match params, h with
    | [r1, r2], _ =>
      exact Spans.fixed (fun _ => rfl) rfl (by simp [difference])
  | lockPoint =>
    match params, h with
    | [px, py], _ =>
      refine ⟨_, fun _ => rfl, fun _ => rfl, fun r => ?_, fun r r' agree => ?_⟩
      · simp [Residual.lockPoint, offset]
      · have x : r.number "x" = r'.number "x" := agree _ (.head _)
        have y : r.number "y" = r'.number "y" := agree _ (.tail _ (.head _))
        simp only [x, y]
  | arcConsistency =>
    match params, h with
    | [rad, ang1, ang2, ax, ay, bx, b_y, cx, cy], _ =>
      exact Spans.fixed (fun _ => rfl) rfl (by simp [Residual.arcConsistency, arcEnd])
  | fillet =>
    match params, h with
    | [ang1, ax1, ay1, ang2, ax2, ay2, cx, cy, rad], _ =>
      refine ⟨_, fun _ => rfl, fun _ => rfl, fun r => ?_, fun r r' agree => ?_⟩
      · simp [tangent, signedDistance]
      · have inverted1 : r.flag "inverted1" = r'.flag "inverted1" := agree _ (.head _)
        have inverted2 : r.flag "inverted2" = r'.flag "inverted2" := agree _ (.tail _ (.head _))
        simp only [inverted1, inverted2]
  | mirror =>
    match params, h with
    | [], _ =>
      exact Spans.fixed (fun _ => rfl) rfl (by simp)

end Drafting
