import Drafting.Proofs.Likeness

namespace Drafting

/-- The parameters of a shape that are directions. -/
def Shape.angles : Shape → List Handle
  | .segment l => [l.ang]
  | .arc x => [x.ang1, x.ang2]
  | _ => []

namespace Sketch

variable {s t u : Sketch ℝ} {r : Reflection ℝ} {id source target : ObjectId}

/-- Whatever is no direction comes back. -/
theorem Mirrors.returns (unit : r.normal.norm = 1) {x y : Shape} {hs : List Handle}
    (there : s.Mirrors t r x y) (back : t.Mirrors u r y x) (same : u.entities = s.entities)
    (listed : s.Lists x hs) : ∀ h ∈ hs, h ∉ x.angles → u.value h = s.value h := by
  have point {id id' : ObjectId} {p : Point} {v v' : Vec ℝ} (hp : s.point id = .ok p)
      (hv : s.position id = .ok v) (there : t.position id' = .ok (r.apply v))
      (hv' : t.position id' = .ok v') (back : u.position id = .ok (r.apply v')) :
      u.value p.x = s.value p.x ∧ u.value p.y = s.value p.y := by
    cases there.symm.trans hv'
    rw [Reflection.apply_apply unit] at back
    exact (position_eq_iff same hp).mp (back.trans hv.symm)
  cases listed with
  | point p =>
    cases there with
    | point lies =>
      cases back with
      | point lies' =>
        rw [lies, Reflection.apply_apply unit, Vec.mk.injEq] at lies'
        simp [lies']
  | segment l hp hq =>
    cases there with
    | segment ha hb start finish length ang =>
      cases back with
      | segment ha' hb' start' finish' length' ang' =>
        simp [Shape.angles, point hp ha start ha' start', point hq hb finish hb' finish',
          length'.trans length]
  | circle x hp =>
    cases there with
    | circle hc center radius =>
      cases back with
      | circle hc' center' radius' =>
        simp [point hp hc center hc' center', radius'.trans radius]
  | arc x hp hq hm =>
    cases there with
    | arc ha hb hc start finish center radius ang1 ang2 =>
      cases back with
      | arc ha' hb' hc' start' finish' center' radius' ang1' ang2' =>
        -- what went from one end to the other comes back from there
        simp +contextual [Shape.angles, point hp ha finish hb' start',
          point hq hb start ha' finish', point hm hc center hc' center', radius'.trans radius]
  | ellipse x hp hq =>
    cases there with
    | ellipse ha hb start finish radius =>
      cases back with
      | ellipse ha' hb' start' finish' radius' =>
        simp [point hp ha start ha' start', point hq hb finish hb' finish', radius'.trans radius]
  | bezier x hp hq hm hn =>
    cases there with
    | bezier ha hb hc hd p0 p1 p2 p3 =>
      cases back with
      | bezier ha' hb' hc' hd' p0' p1' p2' p3' =>
        simp [point hp ha p0 ha' p0', point hq hb p1 hb' p1', point hm hc p2 hc' p2',
          point hn hd p3 hd' p3']

/-- The direction of a segment that has one comes back, up to whole turns. -/
theorem Mirrors.returns_segment (unit : r.normal.norm = 1) {l : Segment} {y : Shape}
    (there : s.Mirrors t r (.segment l) y) (back : t.Mirrors u r y (.segment l))
    (hl : s.segment id = .ok l)
    (consistent : s.Consistent id .segmentConsistency 2) (long : 0 < s.value l.t) :
    ∃ n : ℤ, u.value l.ang = s.value l.ang + n * (2 * Real.pi) := by
  cases there with
  | segment ha hb start finish length ang =>
    cases back with
    | segment ha' hb' start' finish' length' ang' =>
      cases start.symm.trans ha'
      cases finish.symm.trans hb'
      have ends := (consistent_segment_iff hl ha hb).mp consistent
      rw [ang', Reflection.apply_apply unit, Reflection.apply_apply unit, ends]
      exact Exact.direction_onCircle _ long

/-- So do the directions of an arc that is more than a point. -/
theorem Mirrors.returns_arc (unit : r.normal.norm = 1) {x : Arc} {y : Shape}
    (there : s.Mirrors t r (.arc x) y) (back : t.Mirrors u r y (.arc x)) (hx : s.arc id = .ok x)
    (consistent : s.Consistent id .arcConsistency 4) (wide : 0 < s.value x.r) :
    (∃ n : ℤ, u.value x.ang1 = s.value x.ang1 + n * (2 * Real.pi)) ∧
      ∃ n : ℤ, u.value x.ang2 = s.value x.ang2 + n * (2 * Real.pi) := by
  cases there with
  | arc ha hb hc start finish center radius ang1 ang2 =>
    cases back with
    | arc ha' hb' hc' start' finish' center' radius' ang1' ang2' =>
      cases start.symm.trans ha'
      cases finish.symm.trans hb'
      cases center.symm.trans hc'
      obtain ⟨atA, atB⟩ := (consistent_arc_iff hx ha hb hc).mp consistent
      constructor
      · rw [ang1', Reflection.apply_apply unit, Reflection.apply_apply unit, atA]
        exact Exact.direction_onCircle _ wide
      · rw [ang2', Reflection.apply_apply unit, Reflection.apply_apply unit, atB]
        exact Exact.direction_onCircle _ wide

section Back

variable (unit : r.normal.norm = 1)
  (straight : ∀ l, s.segment source = .ok l →
    s.Consistent source .segmentConsistency 2 ∧ 0 < s.value l.t)
  (round : ∀ x, s.arc source = .ok x →
    s.Consistent source .arcConsistency 4 ∧ 0 < s.value x.r)

include unit straight round

/-- Segments and arcs alone have directions, and each of these has its own condition. -/
theorem Mirrors.returns_angles {e : Entity} {y : Shape} (there : s.Mirrors t r e.shape y)
    (back : t.Mirrors u r y e.shape) (he : s.entity? source = some e) :
    ∀ h ∈ e.shape.angles, ∃ n : ℤ, u.value h = s.value h + n * (2 * Real.pi) := by
  intro h hh
  obtain ⟨number, x, owner⟩ := e
  simp only at there back hh
  cases x with
  | segment l =>
    have hl : s.segment source = .ok l := asA_eq_ok_iff.mpr ⟨_, he, rfl⟩
    obtain ⟨consistent, long⟩ := straight l hl
    cases List.mem_singleton.mp hh
    exact there.returns_segment unit back hl consistent long
  | arc x =>
    have hx : s.arc source = .ok x := asA_eq_ok_iff.mpr ⟨_, he, rfl⟩
    obtain ⟨consistent, wide⟩ := round x hx
    obtain ⟨first, last⟩ := there.returns_arc unit back hx consistent wide
    rcases List.mem_pair.mp hh with rfl | rfl
    · exact first
    · exact last
  | _ => simp [Shape.angles] at hh

/-- An object that is mirrored onto another of its kind, and back from its image there, is what it
was: its coordinates, its length and its radius have their values, and its directions differ by
whole turns. For these a segment must be consistent and longer than a point, and so must an arc. -/
theorem mirrored_back (w : s.WellFormed) (spread : s.Spread) {k : ShapeKind}
    (hk : s.kind source = .ok k) (hk' : s.kind target = .ok k)
    (onto : s.Separate [source] [target]) (back : s.Separate [target] [source]) :
    ∃ t u e, outcome (mirrorInto r source target) s = (.ok (), t) ∧
      s.MirrorsPair t r (source, target) ∧ outcome (mirrorInto r target source) t = (.ok (), u) ∧
      s.entity? source = some e ∧
      ∀ h ∈ s.visited source, (h ∉ e.shape.angles → u.value h = s.value h) ∧
        (h ∈ e.shape.angles → ∃ n : ℤ, u.value h = s.value h + n * (2 * Real.pi)) := by
  obtain ⟨t, run, writes, e, f, he, hf, image⟩ := exists_image r w spread hk hk' onto
  -- only values changed, so the way back starts from a sketch as good as the first
  have same := writes.entities
  have kind {id : ObjectId} (h : s.kind id = .ok k) : t.kind id = .ok k := by
    rw [kind, entity_congr same]
    exact h
  obtain ⟨u, run', writes', f', e', hf', he', image'⟩ :=
    exists_image r (writes.advances.wellFormed w) (writes.advances.spread spread) (kind hk')
      (kind hk) (back.congr same)
  cases (((entity?_congr same source).symm.trans he').symm.trans he)
  cases (((entity?_congr same target).symm.trans hf').symm.trans hf)
  obtain ⟨hs, params, listed⟩ := w.exists_listed he
  refine ⟨t, u, e, run, ⟨e, f, he, hf, image⟩, run', he, fun h hh =>
    ⟨fun other => ?_, fun angle => ?_⟩⟩
  · rw [visited_of_objectParams params] at hh
    exact image.returns unit image' (writes'.entities.trans same) listed h hh other
  · exact image.returns_angles unit straight round image' he h angle

end Back

theorem mirrored_back_arcs : ∃ t u x, arcs.arc ⟨8⟩ = .ok x ∧ 0 < arcs.value x.r ∧
    arcs.Consistent ⟨8⟩ .arcConsistency 4 ∧
    outcome (mirrorInto overturn ⟨8⟩ ⟨4⟩) arcs = (.ok (), t) ∧
    outcome (mirrorInto overturn ⟨4⟩ ⟨8⟩) t = (.ok (), u) ∧ u.value x.r = arcs.value x.r ∧
    ∃ n : ℤ, u.value x.ang1 = arcs.value x.ang1 + n * (2 * Real.pi) := by
  obtain ⟨w, spread⟩ := wellFormed_arcs
  obtain ⟨x, hx, wide, consistent⟩ := exists_arcs
  obtain ⟨t, u, e, run, -, run', he, values⟩ := mirrored_back unit_overturn
    (fun l hl => by cases hl)
    (fun x' hx' => by
      cases hx.symm.trans hx'
      exact ⟨consistent, wide⟩)
    w spread (k := .arc) rfl rfl separate_arcs.1 separate_arcs.2
  cases he
  cases hx
  exact ⟨t, u, _, rfl, wide, consistent, run, run', (values ⟨16, 1⟩ (by decide)).1 (by decide),
    (values ⟨17, 1⟩ (by decide)).2 (by decide)⟩

end Sketch

end Drafting
