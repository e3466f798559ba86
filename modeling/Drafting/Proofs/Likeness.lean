import Drafting.Proofs.Copying
import Drafting.Proofs.Curves
import Drafting.Proofs.Isometry

namespace Drafting

open Sketch (onCircle)

/-- Mirroring a curve is mirroring its control points. -/
theorem Path.spot_cubic_apply (r : Reflection ℝ) (p0 p1 p2 p3 : Vec ℝ) (t : ℝ) :
    (cubic (r.apply p0) (r.apply p1) (r.apply p2) (r.apply p3)).spot t =
      r.apply ((cubic p0 p1 p2 p3).spot t) := by
  simp only [Reflection.apply_mk, Reflection.height_eq]
  refine Vec.ext ?_ ?_
  · simp only [spot, cubic, eval_bernstein]
    ring
  · simp only [spot, cubic, eval_bernstein]
    ring

namespace Sketch

/-- A source that has one kind is mirrored onto a shape of that kind. -/
theorem MirrorsPair.shapes {K α : Type} [Scalar K] {s t : Sketch K} {r : Reflection K}
    {source target : ObjectId} {expected : ShapeClass} {view : Shape → Option α} {a : α}
    (image : s.MirrorsPair t r (source, target)) (same : t.entities = s.entities)
    (viewed : s.asA source expected view = .ok a) :
    ∃ x y number owner, view x = some a ∧ t.entity? target = some ⟨number, y, owner⟩ ∧
      s.Mirrors t r x y := by
  obtain ⟨e, f, he, hf, image⟩ := image
  obtain ⟨e', he', viewed⟩ := asA_eq_ok_iff.mp viewed
  cases he.symm.trans he'
  exact ⟨e.shape, f.shape, f.id, f.owner, viewed, (entity?_congr same target).trans hf, image⟩

theorem path_of_positions {s : Sketch ℝ} {id : ObjectId} {x : Bezier} {p0 p1 p2 p3 : Vec ℝ}
    (hx : s.bezier id = .ok x) (h0 : s.position x.p0 = .ok p0) (h1 : s.position x.p1 = .ok p1)
    (h2 : s.position x.p2 = .ok p2) (h3 : s.position x.p3 = .ok p3) :
    s.path id = .ok (.cubic p0 p1 p2 p3) :=
  bind_eq_ok.mpr ⟨x, hx, bind_eq_ok.mpr ⟨p0, h0, bind_eq_ok.mpr ⟨p1, h1,
    bind_eq_ok.mpr ⟨p2, h2, bind_eq_ok.mpr ⟨p3, h3, rfl⟩⟩⟩⟩⟩

section Images

variable {s t : Sketch ℝ} {r : Reflection ℝ} {source target : ObjectId}
  (image : s.MirrorsPair t r (source, target)) (same : t.entities = s.entities)

include image same

/-- The image of a consistent segment is consistent. -/
theorem MirrorsPair.consistent_segment (unit : r.normal.norm = 1) {l : Segment}
    (hl : s.segment source = .ok l) (long : 0 ≤ s.value l.t)
    (consistent : s.Consistent source .segmentConsistency 2) :
    t.Consistent target .segmentConsistency 2 := by
  obtain ⟨x, y, number, owner, viewed, hf, image⟩ := image.shapes same hl
  cases x <;> cases viewed
  cases image with
  | segment ha hb start finish length ang =>
    have ends := (consistent_segment_iff hl ha hb).mp consistent
    have found : t.segment target = .ok _ := asA_eq_ok_iff.mpr ⟨_, hf, rfl⟩
    refine (consistent_segment_iff found start finish).mpr ?_
    rw [length, ang, ends]
    exact Reflection.onCircle_apply unit _ _ long

/-- The image of a consistent arc is consistent. If it is more than a point, it goes as far around:
both directions are turned over and change places. -/
theorem MirrorsPair.consistent_arc (unit : r.normal.norm = 1) {x : Arc}
    (hx : s.arc source = .ok x) (wide : 0 ≤ s.value x.r)
    (consistent : s.Consistent source .arcConsistency 4) :
    ∃ y, t.arc target = .ok y ∧ t.Consistent target .arcConsistency 4 ∧
      (0 < s.value x.r → ∃ n : ℤ, t.value y.ang2 - t.value y.ang1 =
        s.value x.ang2 - s.value x.ang1 + n * (2 * Real.pi)) := by
  obtain ⟨shape, y, number, owner, viewed, hf, image⟩ := image.shapes same hx
  cases shape <;> cases viewed
  cases image with
  | @arc _ y _ _ c ha hb hc start finish center radius ang1 ang2 =>
    obtain ⟨atA, atB⟩ := (consistent_arc_iff hx ha hb hc).mp consistent
    have found : t.arc target = .ok y := asA_eq_ok_iff.mpr ⟨_, hf, rfl⟩
    refine ⟨y, found, (consistent_arc_iff found start finish center).mpr ?_, fun wide => ?_⟩
    · rw [radius, ang1, ang2, atA, atB]
      exact ⟨Reflection.onCircle_apply unit _ _ wide, Reflection.onCircle_apply unit _ _ wide⟩
    · obtain ⟨full, turned⟩ := Reflection.exists_direction_apply unit
      obtain ⟨m, first⟩ := turned c _ (s.value x.ang2) wide
      obtain ⟨n, last⟩ := turned c _ (s.value x.ang1) wide
      rw [← atB, ← ang1] at first
      rw [← atA, ← ang2] at last
      refine ⟨n - m, ?_⟩
      rw [first, last]
      push_cast
      ring

/-- The image of a curve is at each place where the curve is mirrored to. -/
theorem MirrorsPair.path {b : Path} (hb : s.path source = .ok b) :
    ∃ b', t.path target = .ok b' ∧ ∀ place, b'.spot place = r.apply (b.spot place) := by
  obtain ⟨x, hx, -⟩ := bind_eq_ok.mp hb
  obtain ⟨shape, y, number, owner, viewed, hf, image⟩ := image.shapes same hx
  cases shape <;> cases viewed
  cases image with
  | @bezier _ y q0 q1 q2 q3 h0 h1 h2 h3 p0 p1 p2 p3 =>
    have found : t.bezier target = .ok y := asA_eq_ok_iff.mpr ⟨_, hf, rfl⟩
    cases (path_of_positions hx h0 h1 h2 h3).symm.trans hb
    exact ⟨_, path_of_positions found p0 p1 p2 p3, Path.spot_cubic_apply r q0 q1 q2 q3⟩

end Images

section Mirroring

variable {s : Sketch ℝ} {r : Reflection ℝ} {source target : ObjectId}

/-- Mirroring onto an object of the same kind that stands apart leaves the mirror image, and that is
like the source: a consistent segment and a consistent arc are consistent again, the arc goes as far
around as before, and a curve is at each place where the source is mirrored to. -/
theorem mirrored_alike (w : s.WellFormed) (spread : s.Spread) (unit : r.normal.norm = 1)
    {k : ShapeKind} (hk : s.kind source = .ok k) (hk' : s.kind target = .ok k)
    (apart : s.Separate [source] [target]) :
    ∃ t, outcome (mirrorInto r source target) s = (.ok (), t) ∧
      s.MirrorsPair t r (source, target) ∧
      (∀ l, s.segment source = .ok l → 0 ≤ s.value l.t →
        s.Consistent source .segmentConsistency 2 → t.Consistent target .segmentConsistency 2) ∧
      (∀ x, s.arc source = .ok x → 0 ≤ s.value x.r → s.Consistent source .arcConsistency 4 →
        ∃ y, t.arc target = .ok y ∧ t.Consistent target .arcConsistency 4 ∧
          (0 < s.value x.r → ∃ n : ℤ, t.value y.ang2 - t.value y.ang1 =
            s.value x.ang2 - s.value x.ang1 + n * (2 * Real.pi))) ∧
      ∀ b, s.path source = .ok b →
        ∃ b', t.path target = .ok b' ∧ ∀ place, b'.spot place = r.apply (b.spot place) := by
  obtain ⟨t, run, writes, image⟩ := exists_image r w spread hk hk' apart
  have same := writes.entities
  refine ⟨t, run, image, fun l hl long consistent => ?_, fun x hx wide consistent => ?_,
    fun b hb => ?_⟩
  · exact image.consistent_segment same unit hl long consistent
  · exact image.consistent_arc same unit hx wide consistent
  · exact image.path same hb

noncomputable def arcs : Sketch ℝ :=
  ((addArc ⟨1, 0⟩ 1 0 1).run ((addArc ⟨0, 0⟩ 1 0 1).run empty).2).2

theorem wellFormed_arcs : arcs.WellFormed ∧ arcs.Spread := by
  have advances (s : Sketch ℝ) (o : s.Ordered) (c : Vec ℝ) (k p q : ℝ) :
      s.Advances ((addArc c k p q).run s).2 :=
    .draw (drawn_addArc c k p q o) fun spread => spread.addArc c k p q
  have none : (empty : Sketch ℝ).WellFormed ∧ (empty : Sketch ℝ).Spread :=
    ⟨wellFormed_of_empty rfl, by simp [Spread, empty]⟩
  have first := advances _ none.1.toOrdered ⟨0, 0⟩ 1 0 1
  have both := advances _ (first.wellFormed none.1).toOrdered ⟨1, 0⟩ 1 0 1
  exact ⟨both.wellFormed (first.wellFormed none.1), both.spread (first.spread none.2)⟩

theorem exists_arcs : ∃ x, arcs.arc ⟨8⟩ = .ok x ∧ 0 < arcs.value x.r ∧
    arcs.Consistent ⟨8⟩ .arcConsistency 4 := by
  have o : ((addArc (⟨0, 0⟩ : Vec ℝ) 1 0 1).run empty).2.Ordered :=
    (drawn_addArc _ _ _ _ .empty).ordered .empty
  obtain ⟨x, hx, radius, -⟩ := drawn_arc (⟨1, 0⟩ : Vec ℝ) 1 0 1 o
  exact ⟨x, hx, radius.value.symm ▸ one_pos, consistent_addArc o _ _ _ _⟩

theorem separate_arcs : arcs.Separate [⟨8⟩] [⟨4⟩] ∧ arcs.Separate [⟨4⟩] [⟨8⟩] := by
  have first : arcs.visited ⟨4⟩ = [7, 8, 9, 3, 4, 5, 6, 1, 2].map (Handle.mk · 1) := rfl
  have second : arcs.visited ⟨8⟩ = [16, 17, 18, 12, 13, 14, 15, 10, 11].map (Handle.mk · 1) := rfl
  have ends : ∀ o ∈ [(⟨4⟩ : ObjectId), ⟨8⟩], ∀ g, arcs.segment o ≠ .ok g := by
    intro o ho g hg
    rcases List.mem_pair.mp ho with rfl | rfl <;> cases hg
  constructor
  · exact ⟨by simp, by simp [first, second], fun o ho g hg => absurd hg (ends o (by simp_all) g)⟩
  · exact ⟨by simp, by simp [first, second], fun o ho g hg => absurd hg (ends o (by simp_all) g)⟩

def overturn : Reflection ℝ := ⟨⟨0, 0⟩, ⟨1, 0⟩⟩

theorem unit_overturn : overturn.normal.norm = 1 := by
  rw [← sq_eq_sq₀ (Exact.norm_nonneg _) zero_le_one, Exact.norm_sq]
  norm_num [overturn]

theorem mirrored_alike_arcs : ∃ x t y, arcs.arc ⟨8⟩ = .ok x ∧ 0 < arcs.value x.r ∧
    arcs.Consistent ⟨8⟩ .arcConsistency 4 ∧
    outcome (mirrorInto overturn ⟨8⟩ ⟨4⟩) arcs = (.ok (), t) ∧ t.arc ⟨4⟩ = .ok y ∧
    t.Consistent ⟨4⟩ .arcConsistency 4 ∧ ∃ n : ℤ, t.value y.ang2 - t.value y.ang1 =
      arcs.value x.ang2 - arcs.value x.ang1 + n * (2 * Real.pi) := by
  obtain ⟨w, spread⟩ := wellFormed_arcs
  obtain ⟨x, hx, wide, consistent⟩ := exists_arcs
  obtain ⟨t, run, -, -, arc, -⟩ :=
    mirrored_alike w spread unit_overturn (k := .arc) rfl rfl separate_arcs.1
  obtain ⟨y, hy, consistent', sweep⟩ := arc x hx wide.le consistent
  exact ⟨x, t, y, hx, wide, consistent, run, hy, consistent', sweep wide⟩

end Mirroring

end Sketch

end Drafting
