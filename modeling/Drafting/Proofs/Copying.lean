import Drafting.Proofs.Mirroring

namespace Drafting

namespace Sketch

section Completes

variable {K ε α β : Type} {s : Sketch K} {m : Edit K ε α}

/-- The step succeeds wherever the objects are those of `s`, and keeps them. -/
def Completes (s : Sketch K) (m : Edit K ε α) : Prop :=
  ∀ u, u.entities = s.entities → ∃ a t, outcome m u = (.ok a, t) ∧ t.entities = s.entities

theorem Completes.bind {f : α → Edit K ε β} (first : s.Completes m)
    (second : ∀ a, s.Completes (f a)) : s.Completes (m >>= f) := by
  intro u same
  obtain ⟨a, t, run, same⟩ := first u same
  rw [outcome_bind_ok run]
  exact second a t same

theorem Completes.discard (completes : s.Completes m) : s.Completes (discard m) := by
  intro u same
  obtain ⟨a, t, run, same⟩ := completes u same
  exact ⟨(), t, outcome_discard_eq_ok.mpr ⟨a, run⟩, same⟩

theorem Completes.ask_bind {f : Sketch K → Except ε α} {g : α → Edit K ε β} {a : α}
    (answer : ∀ u, u.entities = s.entities → f u = .ok a) (second : s.Completes (g a)) :
    s.Completes (ask f >>= g) := by
  intro u same
  rw [outcome_bind_ok (outcome_ask_eq_ok.mpr ⟨answer u same, rfl⟩)]
  exact second u same

theorem completes_writeValue (h : Handle) (x : K) : s.Completes (writeValue h x) :=
  fun _ same => ⟨(), _, rfl, same⟩

variable [Scalar K]

theorem completes_copyValue (k h : Handle) : s.Completes (copyValue k h) :=
  fun _ same => ⟨(), _, rfl, same⟩

variable (r : Reflection K) {source target : ObjectId} {p q : Point} {e f : Entity}

theorem completes_reflectPoint (hp : s.point source = .ok p) (hq : s.point target = .ok q) :
    s.Completes (reflectPoint r source target) := by
  intro u same
  have read := position_of_point ((point_congr same source).trans hp)
  unfold reflectPoint
  rw [outcome_bind_ok (outcome_ask_eq_ok.mpr ⟨read, rfl⟩)]
  exact ⟨_, _, outcome_place ((point_congr same target).trans hq) _, same⟩

/-- Kinds are all that mirroring can fail for, once both objects are there. -/
theorem completes_mirrorInto (o : s.Ordered) (he : s.entity? source = some e)
    (hf : s.entity? target = some f) (kind : e.shape.kind = f.shape.kind) :
    s.Completes (mirrorInto r source target) := by
  refine .ask_bind (entity_of_entity? he) (.ask_bind (entity_of_entity? hf) ?_)
  obtain ⟨ks, -, reads⟩ := o.exists_listed he
  obtain ⟨hs, -, writes⟩ := o.exists_listed hf
  obtain ⟨number, x, owner⟩ := e
  obtain ⟨number', y, owner'⟩ := f
  simp only at kind reads writes ⊢
  have image {c c' : ObjectId} {p q : Point} (hp : s.point c = .ok p) (hq : s.point c' = .ok q) :
      s.Completes (reflectPoint r c c') := completes_reflectPoint r hp hq
  cases reads with
  | point p =>
    cases writes <;> cases kind
    exact (image (point_eq_ok_iff.mpr ⟨_, he, rfl⟩) (point_eq_ok_iff.mpr ⟨_, hf, rfl⟩)).discard
  | segment x ha hb =>
    cases writes <;> cases kind
    rename_i hp hq
    exact (image ha hp).bind fun _ => (image hb hq).bind fun _ =>
      (completes_writeValue _ _).bind fun _ => completes_copyValue _ _
  | circle x hc =>
    cases writes <;> cases kind
    rename_i hp
    exact (image hc hp).discard.bind fun _ => completes_copyValue _ _
  | arc x ha hb hc =>
    cases writes <;> cases kind
    rename_i hp hq hm
    exact (image hc hm).bind fun _ => (image hb hp).bind fun _ => (image ha hq).bind fun _ =>
      (completes_copyValue _ _).bind fun _ => (completes_writeValue _ _).bind fun _ =>
        completes_writeValue _ _
  | ellipse x ha hb =>
    cases writes <;> cases kind
    rename_i hp hq
    exact (image ha hp).discard.bind fun _ => (image hb hq).discard.bind fun _ =>
      completes_copyValue _ _
  | bezier x ha hb hc hd =>
    cases writes <;> cases kind
    rename_i hp hq hm hn
    exact (image ha hp).discard.bind fun _ => (image hb hq).discard.bind fun _ =>
      (image hc hm).discard.bind fun _ => (image hd hn).discard

end Completes

theorem mem_visited_congr {K : Type} {s t : Sketch K} (same : t.entities = s.entities)
    {id : ObjectId} {h : Handle} : h ∈ t.visited id ↔ h ∈ s.visited id := by
  rw [mem_visited, mem_visited]
  exact ⟨fun carried => carried.congr same.symm, fun carried => carried.congr same⟩

/-- What stands apart stays apart while only values change. -/
theorem Separate.congr {K : Type} {s t : Sketch K} {reference managed : List ObjectId}
    (apart : s.Separate reference managed) (same : t.entities = s.entities) :
    t.Separate reference managed where
  targets := apart.targets.imp fun distinct h hh hh' =>
    distinct h ((mem_visited_congr same).mp hh) ((mem_visited_congr same).mp hh')
  sources o ho q hq h hh hh' := apart.sources o ho q hq h ((mem_visited_congr same).mp hh)
    ((mem_visited_congr same).mp hh')
  ends o ho g hg := apart.ends o ho g ((segment_congr same o).symm.trans hg)

section Mirrors

variable {K : Type} [Scalar K] {s t u : Sketch K} {r : Reflection K} {x y : Shape}
  {hs : List Handle} {source target : ObjectId}

/-- A target that stands apart from a source of its kind is made its mirror image. -/
theorem exists_image (r : Reflection K) (w : s.WellFormed) (spread : s.Spread) {k : ShapeKind}
    (hx : s.kind source = .ok k) (hy : s.kind target = .ok k)
    (apart : s.Separate [source] [target]) :
    ∃ t, outcome (mirrorInto r source target) s = (.ok (), t) ∧
      s.Writes (fun h => h ∈ s.visited target) t ∧ s.MirrorsPair t r (source, target) := by
  obtain ⟨e, he, is⟩ := kind_eq_ok_iff.mp hx
  obtain ⟨f, hf, is'⟩ := kind_eq_ok_iff.mp hy
  have kind : e.shape.kind = f.shape.kind := (beq_iff_eq.mp is).trans (beq_iff_eq.mp is').symm
  obtain ⟨_, t, run, -⟩ := completes_mirrorInto r w.toOrdered he hf kind s rfl
  have once : outcome ([(source, target)].forM fun pair => mirrorInto r pair.1 pair.2) s =
      (.ok (), t) := outcome_bind_ok run _
  have apart : s.Separate ([(source, target)].map Prod.fst) ([(source, target)].map Prod.snd) :=
    apart
  obtain ⟨writes, images⟩ := mirrors_of_separate w spread apart once
  exact ⟨t, run, by simpa using writes, images _ (List.mem_singleton_self _)⟩

/-- Only values count. -/
theorem Mirrors.congr (image : s.Mirrors t r x y) (same : u.entities = t.entities)
    (values : ∀ h, u.value h = t.value h) : s.Mirrors u r x y := by
  have lies {id : ObjectId} {v : Vec K} (h : t.position id = .ok v) : u.position id = .ok v :=
    (position_congr same fun p _ => ⟨values p.x, values p.y⟩).trans h
  cases image with
  | point h => exact .point (by rw [values, values, h])
  | segment ha hb start finish length ang =>
    exact .segment ha hb (lies start) (lies finish) ((values _).trans length) ((values _).trans ang)
  | circle hc center radius => exact .circle hc (lies center) ((values _).trans radius)
  | arc ha hb hc start finish center radius ang1 ang2 =>
    exact .arc ha hb hc (lies start) (lies finish) (lies center) ((values _).trans radius)
      ((values _).trans ang1) ((values _).trans ang2)
  | ellipse ha hb start finish radius =>
    exact .ellipse ha hb (lies start) (lies finish) ((values _).trans radius)
  | bezier ha hb hc hd p0 p1 p2 p3 =>
    exact .bezier ha hb hc hd (lies p0) (lies p1) (lies p2) (lies p3)

/-- All parameters of a mirror image have their values from the source. -/
theorem Mirrors.values (image : s.Mirrors t r x y) (image' : s.Mirrors u r x y)
    (listed : s.Lists y hs) (ht : t.entities = s.entities) (hu : u.entities = s.entities) :
    ∀ h ∈ hs, t.value h = u.value h := by
  have lies {id : ObjectId} {p : Point} {v : Vec K} (hp : s.point id = .ok p)
      (h : t.position id = .ok v) (h' : u.position id = .ok v) :
      t.value p.x = u.value p.x ∧ t.value p.y = u.value p.y :=
    (position_eq_iff (ht.trans hu.symm) ((point_congr hu id).trans hp)).mp (h.trans h'.symm)
  cases image with
  | point h =>
    cases image' with
    | point h' =>
      cases listed
      simpa using h.trans h'.symm
  | segment ha hb start finish length ang =>
    cases image' with
    | segment ha' hb' start' finish' length' ang' =>
      cases ha.symm.trans ha'
      cases hb.symm.trans hb'
      cases listed with
      | segment _ hp hq =>
        simp [lies hp start start', lies hq finish finish', ang, ang', length, length']
  | circle hc center radius =>
    cases image' with
    | circle hc' center' radius' =>
      cases hc.symm.trans hc'
      cases listed with
      | circle _ hp => simp [lies hp center center', radius, radius']
  | arc ha hb hc start finish center radius ang1 ang2 =>
    cases image' with
    | arc ha' hb' hc' start' finish' center' radius' ang1' ang2' =>
      cases ha.symm.trans ha'
      cases hb.symm.trans hb'
      cases hc.symm.trans hc'
      cases listed with
      | arc _ hp hq hm =>
        simp [lies hp start start', lies hq finish finish', lies hm center center', radius,
          radius', ang1, ang1', ang2, ang2']
  | ellipse ha hb start finish radius =>
    cases image' with
    | ellipse ha' hb' start' finish' radius' =>
      cases ha.symm.trans ha'
      cases hb.symm.trans hb'
      cases listed with
      | ellipse _ hp hq => simp [lies hp start start', lies hq finish finish', radius, radius']
  | bezier ha hb hc hd p0 p1 p2 p3 =>
    cases image' with
    | bezier ha' hb' hc' hd' p0' p1' p2' p3' =>
      cases ha.symm.trans ha'
      cases hb.symm.trans hb'
      cases hc.symm.trans hc'
      cases hd.symm.trans hd'
      cases listed with
      | bezier _ hp hq hm hn =>
        simp [lies hp p0 p0', lies hq p1 p1', lies hm p2 p2', lies hn p3 p3']

end Mirrors

end Sketch

end Drafting
