import Drafting.Proofs.Sharing

namespace Drafting

open Sketch (Edit mirrorInto mirrorSegment mirrorArc reflectPoint copyValue writeValue)

variable {K : Type} [Scalar K]

/-- The points that mirroring goes through: one of the source, which it reads, with one of the
target, which it writes. The ends of an arc change places. -/
def Entity.images (a d : Entity) : List (ObjectId × ObjectId) :=
  match a.shape, d.shape with
  | .point _, .point _ => [(a.id, d.id)]
  | .segment x, .segment y => [(x.a, y.a), (x.b, y.b)]
  | .circle x, .circle y => [(x.c, y.c)]
  | .arc x, .arc y => [(x.c, y.c), (x.b, y.a), (x.a, y.b)]
  | .ellipse x, .ellipse y => [(x.ep1, y.ep1), (x.ep2, y.ep2)]
  | .bezier x, .bezier y => [(x.p0, y.p0), (x.p1, y.p1), (x.p2, y.p2), (x.p3, y.p3)]
  | _, _ => []

namespace Sketch

variable {s s₀ t : Sketch K} {h k : Handle} {c d : ObjectId} {p : Point} {r : Reflection K}
  {W : Handle → Prop} {D : List (ObjectId × ObjectId)}

/-- A value is set if its parameter is there, and else it is not. -/
theorem value_setValue_self (live : (s.param? h).isSome) (x : K) :
    (s.setValue h x).value h = x := by
  obtain ⟨q, hq⟩ := Option.isSome_iff_exists.mp live
  rw [param?] at hq
  simp [value, param?, setValue, hq]

theorem value_setValue_of_ne (ne : k ≠ h) (x : K) : (s.setValue h x).value k = s.value k := by
  simp [value, param?, setValue, Store.get?_update_of_ne _ ne]

theorem position_eq_iff (same : t.entities = s.entities) (hp : s.point c = .ok p) :
    t.position c = s.position c ↔ t.value p.x = s.value p.x ∧ t.value p.y = s.value p.y := by
  rw [position_of_point hp, position_of_point ((point_congr same c).trans hp)]
  simp

/-- A written parameter is the same as before if its value is. -/
theorem Writes.param?_eq_iff (w : s.Writes W t) :
    t.param? h = s.param? h ↔ t.value h = s.value h := by
  constructor
  · intro same
    rw [value, value, same]
  · intro same
    have kept := w.kept h
    cases hs : s.param? h with
    | none =>
      rw [hs] at kept
      simpa using kept
    | some p =>
      rw [hs] at kept
      obtain ⟨q, hq, names⟩ := Option.map_eq_some_iff.mp kept
      simp only [value, hs, hq] at same
      obtain ⟨name, bounds⟩ := Prod.mk.inj names
      cases p
      cases q
      simp_all

/-- A sketch as drawing leaves it: objects have parameters of their own, and all are live. -/
structure WellFormed (s : Sketch K) : Prop extends s.Ordered where
  distinct : s.fields.Nodup
  live : ∀ h ∈ s.fields, (s.param? h).isSome

omit [Scalar K] in
theorem own_of_point (hp : s.point c = .ok p) :
    ∃ e ∈ s.entities, e.id = c ∧ e.shape = .point p ∧ p.x ∈ e.shape.own ∧ p.y ∈ e.shape.own := by
  obtain ⟨e, he, shape⟩ := point_eq_ok_iff.mp hp
  refine ⟨e, List.mem_of_find?_eq_some he, id_of_entity? he, shape, ?_, ?_⟩
  · simp [shape]
  · simp [shape]

omit [Scalar K] in
theorem WellFormed.coordinates (w : s.WellFormed) (hp : s.point c = .ok p) :
    p.x ≠ p.y ∧ (s.param? p.x).isSome ∧ (s.param? p.y).isSome := by
  obtain ⟨e, he, -, shape, hx, hy⟩ := own_of_point hp
  have own := (List.nodup_flatMap.mp w.distinct).1 e he
  refine ⟨?_, w.live _ (List.mem_flatMap.mpr ⟨e, he, hx⟩),
    w.live _ (List.mem_flatMap.mpr ⟨e, he, hy⟩)⟩
  intro same
  simp [shape, Shape.own, Shape.parts, same] at own

omit [Scalar K] in
/-- A coordinate of a point belongs to no other object. -/
theorem WellFormed.apart (w : s.WellFormed) (hp : s.point c = .ok p) {e : Entity}
    (he : e ∈ s.entities) (other : e.id ≠ c) (hh : h ∈ e.shape.own) : p.x ≠ h ∧ p.y ≠ h := by
  obtain ⟨f, hf, number, -, hx, hy⟩ := own_of_point hp
  have ne : f ≠ e := by
    intro same
    rw [← same] at other
    exact other number
  refine ⟨?_, ?_⟩
  · intro same
    exact ne (eq_of_mem_own w.distinct hf he (same ▸ hx) hh)
  · intro same
    exact ne (eq_of_mem_own w.distinct hf he (same ▸ hy) hh)

/-- Writing what other objects carry changes what an object carries just where it moves one of their
common points. -/
theorem Writes.spares_iff {e : Entity} {id : ObjectId} {ids : List ObjectId}
    (w : s.Writes (fun h => ∃ c ∈ ids, s.Carries c h) t) (well : s.WellFormed)
    (he : s.entity? id = some e) (other : ∀ c ∈ ids, id ≠ c) :
    (∀ h, s.Carries id h → t.param? h = s.param? h) ↔
      ∀ p ∈ s.pointsOf id, (∃ c ∈ ids, p ∈ s.pointsOf c) → t.position p = s.position p := by
  constructor
  · intro same p hp _
    obtain ⟨q, hq, hx, hy⟩ :=
      carries_of_mem_points well.toOrdered he ((mem_pointsOf he).mp hp)
    refine (position_eq_iff w.entities hq).mpr ⟨?_, ?_⟩
    · exact w.param?_eq_iff.mp (same q.x hx)
    · exact w.param?_eq_iff.mp (same q.y hy)
  · intro stays h carried
    by_cases written : ∃ c ∈ ids, s.Carries c h
    · obtain ⟨c, hc, theirs⟩ := written
      obtain ⟨p, hp, hp', q, hq, hxy⟩ :=
        shared_of_carries well.toOrdered well.distinct carried theirs (other c hc)
      obtain ⟨x, y⟩ := (position_eq_iff w.entities hq).mp (stays p hp ⟨c, hc, hp'⟩)
      rcases hxy with rfl | rfl
      · exact w.param?_eq_iff.mpr x
      · exact w.param?_eq_iff.mpr y
    · exact w.others h written

omit [Scalar K] in
theorem point_ne {e : Entity} {id : ObjectId} (he : s.entity? id = some e)
    (ne : ∀ p, e.shape ≠ .point p) : ∀ p, s.point e.id ≠ .ok p := by
  intro p hp
  obtain ⟨d, hd, shape⟩ := point_eq_ok_iff.mp hp
  rw [id_of_entity? he, he] at hd
  cases hd
  exact ne p shape

def images (s : Sketch K) (source target : ObjectId) : List (ObjectId × ObjectId) :=
  match s.entity? source, s.entity? target with
  | some a, some d => a.images d
  | _, _ => []

/-- After values of `s` were written within `W`, the point lies at the reflection of a point that is
paired with it, as that lay when it was read. -/
def Mirrored (s : Sketch K) (W : Handle → Prop) (r : Reflection K)
    (D : List (ObjectId × ObjectId)) (t : Sketch K) (p : ObjectId) : Prop :=
  ∃ q u v, (q, p) ∈ D ∧ s.Writes W u ∧ u.position q = .ok v ∧ t.position p = .ok (r.apply v)

structure Reflected (s₀ : Sketch K) (W : Handle → Prop) (r : Reflection K)
    (D : List (ObjectId × ObjectId)) (s : Sketch K) : Prop where
  writes : s₀.Writes W s
  points : ∀ pair ∈ D, s₀.Mirrored W r D s pair.2

namespace Reflected

variable {e : Entity}

/-- The order of the pairs does not count. -/
theorem congr {D' : List (ObjectId × ObjectId)} (ref : Reflected s₀ W r D s)
    (same : ∀ pair, pair ∈ D' ↔ pair ∈ D) : Reflected s₀ W r D' s := by
  refine ⟨ref.writes, fun pair hp => ?_⟩
  obtain ⟨q, u, v, hq, lies⟩ := ref.points pair ((same pair).mp hp)
  exact ⟨q, u, v, (same _).mpr hq, lies⟩

/-- A value that is no coordinate leaves the points where they are. -/
theorem setValue (ref : Reflected s₀ W r D s) (w : s₀.WellFormed) (he : e ∈ s₀.entities)
    (hh : h ∈ e.shape.own) (other : ∀ p, s₀.point e.id ≠ .ok p) (hW : W h) (x : K) :
    Reflected s₀ W r D (s.setValue h x) := by
  refine ⟨ref.writes.trans (.setValue hW s x), fun pair hpair => ?_⟩
  obtain ⟨q, u, v, hq, hu, hv, lies⟩ := ref.points pair hpair
  obtain ⟨p, hp, -⟩ := bind_eq_ok.mp lies
  have hp₀ : s₀.point pair.2 = .ok p := (point_congr ref.writes.entities _).symm.trans hp
  have ne : e.id ≠ pair.2 := by
    intro same
    exact other p (same ▸ hp₀)
  obtain ⟨nx, ny⟩ := w.apart hp₀ he ne hh
  refine ⟨q, u, v, hq, hu, hv, ?_⟩
  rw [position_of_point hp] at lies
  rw [position_of_point (s := s.setValue h x) hp, value_setValue_of_ne nx, value_setValue_of_ne ny]
  exact lies

/-- A point moved to the reflection of another leaves the rest where they are. -/
theorem setPosition {a : ObjectId} {v : Vec K} (ref : Reflected s₀ W r D s) (w : s₀.WellFormed)
    (into : ∀ p, s₀.point d = .ok p → W p.x ∧ W p.y) (read : s.position a = .ok v)
    (ht : s.setPosition d (r.apply v) = .ok t) : Reflected s₀ W r ((a, d) :: D) t := by
  have writes := ref.writes.trans (Writes.setPosition ht fun p hp =>
    into p ((point_congr ref.writes.entities d).symm.trans hp))
  obtain ⟨q, hq, hset⟩ := bind_eq_ok.mp ht
  cases hset
  have hq₀ : s₀.point d = .ok q := (point_congr ref.writes.entities d).symm.trans hq
  obtain ⟨xy, livex, livey⟩ := w.coordinates hq₀
  obtain ⟨g, hg, number, -, hx, hy⟩ := own_of_point hq₀
  have first := Writes.setValue (W := fun _ => True) (h := q.x) trivial s (r.apply v).x
  refine ⟨writes, fun pair hpair => ?_⟩
  by_cases same : pair.2 = d
  · -- the last writing of a point is the one that shows
    refine ⟨a, s, v, by simp [same], ref.writes, read, ?_⟩
    rw [same, position_of_point (s := (s.setValue q.x _).setValue q.y _) hq,
      value_setValue_of_ne xy, value_setValue_self, value_setValue_self]
    · rw [first.live, ref.writes.live]
      exact livey
    · rw [ref.writes.live]
      exact livex
  · have earlier : pair ∈ D := by
      refine (List.mem_cons.mp hpair).resolve_left fun new => same ?_
      rw [new]
    obtain ⟨b, u, x, hb, hu, hx', lies⟩ := ref.points pair earlier
    obtain ⟨p, hp, -⟩ := bind_eq_ok.mp lies
    have hp₀ : s₀.point pair.2 = .ok p := (point_congr ref.writes.entities _).symm.trans hp
    have ne : g.id ≠ pair.2 := fun h => same (h.symm.trans number)
    obtain ⟨xx, yx⟩ := w.apart hp₀ hg ne hx
    obtain ⟨xy', yy⟩ := w.apart hp₀ hg ne hy
    refine ⟨b, u, x, List.mem_cons_of_mem _ hb, hu, hx', ?_⟩
    rw [position_of_point hp] at lies
    rw [position_of_point (s := (s.setValue q.x _).setValue q.y _) hp, value_setValue_of_ne xy',
      value_setValue_of_ne xx, value_setValue_of_ne yy, value_setValue_of_ne yx]
    exact lies

/-- Moving a point to the reflection of its source adds one pair. -/
theorem reflectPoint {v : Vec K} {a : ObjectId} (ref : Reflected s₀ W r D s) (w : s₀.WellFormed)
    (into : ∀ p, s₀.point d = .ok p → W p.x ∧ W p.y)
    (h : outcome (reflectPoint r a d) s = (.ok v, t)) : Reflected s₀ W r ((a, d) :: D) t := by
  obtain ⟨u, _, asked, h⟩ := outcome_bind_eq_ok.mp h
  obtain ⟨read, rfl⟩ := outcome_ask_eq_ok.mp asked
  obtain ⟨_, _, asked, h⟩ := outcome_bind_eq_ok.mp h
  obtain ⟨moved, rfl⟩ := outcome_ask_eq_ok.mp asked
  cases h
  exact ref.setPosition w into read moved

theorem discard_bind {α : Type} {x : α} {a : ObjectId} {f : Unit → Edit K SketchError α}
    (ref : Reflected s₀ W r D s) (w : s₀.WellFormed)
    (into : ∀ p, s₀.point d = .ok p → W p.x ∧ W p.y)
    (h : outcome (discard (Sketch.reflectPoint r a d) >>= f) s = (.ok x, t)) :
    ∃ u, Reflected s₀ W r ((a, d) :: D) u ∧ outcome (f ()) u = (.ok x, t) := by
  obtain ⟨_, u, first, h⟩ := outcome_bind_eq_ok.mp h
  obtain ⟨_, first⟩ := outcome_discard_eq_ok.mp first
  exact ⟨u, ref.reflectPoint w into first, h⟩

theorem writeValue (ref : Reflected s₀ W r D s) (w : s₀.WellFormed) (he : e ∈ s₀.entities)
    (other : ∀ p, s₀.point e.id ≠ .ok p) (own : ∀ h ∈ e.shape.own, W h) (hh : h ∈ e.shape.own)
    {x : K} (run : outcome (writeValue h x) s = (.ok (), t)) : Reflected s₀ W r D t := by
  cases run
  exact ref.setValue w he hh other (own h hh) x

theorem copyValue (ref : Reflected s₀ W r D s) (w : s₀.WellFormed) (he : e ∈ s₀.entities)
    (other : ∀ p, s₀.point e.id ≠ .ok p) (own : ∀ h ∈ e.shape.own, W h) (hh : h ∈ e.shape.own)
    (run : outcome (copyValue k h) s = (.ok (), t)) : Reflected s₀ W r D t := by
  cases run
  exact ref.setValue w he hh other (own h hh) _

theorem mirrorSegment {a d : Segment} (ref : Reflected s₀ W r D s) (w : s₀.WellFormed)
    (he : e ∈ s₀.entities) (shape : e.shape = .segment d) (other : ∀ p, s₀.point e.id ≠ .ok p)
    (own : ∀ h ∈ e.shape.own, W h)
    (child : ∀ c ∈ e.shape.children, ∀ p, s₀.point c = .ok p → W p.x ∧ W p.y)
    (h : outcome (mirrorSegment r a d) s = (.ok (), t)) :
    Reflected s₀ W r ((a.b, d.b) :: (a.a, d.a) :: D) t := by
  obtain ⟨_, _, h₁, h⟩ := outcome_bind_eq_ok.mp h
  obtain ⟨_, _, h₂, h⟩ := outcome_bind_eq_ok.mp h
  obtain ⟨_, _, h₃, h⟩ := outcome_bind_eq_ok.mp h
  have one := ref.reflectPoint w (child d.a (by simp [shape])) h₁
  have both := one.reflectPoint w (child d.b (by simp [shape])) h₂
  have turned := both.writeValue w he other own (by simp [shape]) h₃
  exact turned.copyValue w he other own (by simp [shape]) h

theorem mirrorArc {a d : Arc} (ref : Reflected s₀ W r D s) (w : s₀.WellFormed)
    (he : e ∈ s₀.entities) (shape : e.shape = .arc d) (other : ∀ p, s₀.point e.id ≠ .ok p)
    (own : ∀ h ∈ e.shape.own, W h)
    (child : ∀ c ∈ e.shape.children, ∀ p, s₀.point c = .ok p → W p.x ∧ W p.y)
    (h : outcome (mirrorArc r a d) s = (.ok (), t)) :
    Reflected s₀ W r ((a.a, d.b) :: (a.b, d.a) :: (a.c, d.c) :: D) t := by
  obtain ⟨_, _, h₁, h⟩ := outcome_bind_eq_ok.mp h
  obtain ⟨_, _, h₂, h⟩ := outcome_bind_eq_ok.mp h
  obtain ⟨_, _, h₃, h⟩ := outcome_bind_eq_ok.mp h
  obtain ⟨_, _, h₄, h⟩ := outcome_bind_eq_ok.mp h
  obtain ⟨_, _, h₅, h⟩ := outcome_bind_eq_ok.mp h
  have center := ref.reflectPoint w (child d.c (by simp [shape])) h₁
  have one := center.reflectPoint w (child d.a (by simp [shape])) h₂
  have both := one.reflectPoint w (child d.b (by simp [shape])) h₃
  have grown := both.copyValue w he other own (by simp [shape]) h₄
  have turned := grown.writeValue w he other own (by simp [shape]) h₅
  exact turned.writeValue w he other own (by simp [shape]) h

/-- Every point of a mirrored object is paired, and lies at a reflection. -/
theorem mirrorInto {source target : ObjectId} (ref : Reflected s₀ W r D s) (w : s₀.WellFormed)
    (into : ∀ h, s₀.Carries target h → W h)
    (h : outcome (mirrorInto r source target) s = (.ok (), t)) :
    Reflected s₀ W r (s₀.images source target ++ D) t ∧
      ∀ p ∈ s₀.pointsOf target, p ∈ (s₀.images source target).map Prod.snd := by
  obtain ⟨src, _, asked, h⟩ := outcome_bind_eq_ok.mp h
  obtain ⟨known, rfl⟩ := outcome_ask_eq_ok.mp asked
  have foundSrc : s₀.entity? source = some src :=
    (entity?_congr ref.writes.entities source).symm.trans (entity_eq_ok_iff.mp known)
  obtain ⟨dst, _, asked, h⟩ := outcome_bind_eq_ok.mp h
  obtain ⟨known, rfl⟩ := outcome_ask_eq_ok.mp asked
  have found : s₀.entity? target = some dst :=
    (entity?_congr ref.writes.entities target).symm.trans (entity_eq_ok_iff.mp known)
  have he := List.mem_of_find?_eq_some found
  have number := id_of_entity? found
  have numberSrc := id_of_entity? foundSrc
  have own := own_into found into
  have child := child_into found into
  have points : s₀.pointsOf target = dst.points := by
    rw [pointsOf, found]
  have images : s₀.images source target = src.images dst := by
    rw [Sketch.images, foundSrc, found]
  rw [points, images]
  split at h
  · rename_i a d shapeSrc shape
    obtain ⟨_, h⟩ := outcome_discard_eq_ok.mp h
    have moved := ref.reflectPoint w (point_into into) h
    simp [Entity.images, Entity.points, shapeSrc, shape, number, numberSrc, moved]
  · rename_i a d shapeSrc shape
    have moved := ref.mirrorSegment w he shape (point_ne found (by simp [shape])) own child h
    simp only [Entity.images, Entity.points, shapeSrc, shape]
    exact ⟨moved.congr (by simp [or_left_comm]), by simp⟩
  · rename_i a d shapeSrc shape
    obtain ⟨_, center, h⟩ := ref.discard_bind w (child d.c (by simp [shape])) h
    have moved := center.copyValue w he (point_ne found (by simp [shape])) own (by simp [shape]) h
    simp only [Entity.images, Entity.points, shapeSrc, shape]
    exact ⟨moved, by simp⟩
  · rename_i a d shapeSrc shape
    have moved := ref.mirrorArc w he shape (point_ne found (by simp [shape])) own child h
    simp only [Entity.images, Entity.points, shapeSrc, shape]
    exact ⟨moved.congr (by simp [or_left_comm]), by simp⟩
  · rename_i a d shapeSrc shape
    obtain ⟨_, one, h⟩ := ref.discard_bind w (child d.ep1 (by simp [shape])) h
    obtain ⟨_, both, h⟩ := one.discard_bind w (child d.ep2 (by simp [shape])) h
    have moved := both.copyValue w he (point_ne found (by simp [shape])) own (by simp [shape]) h
    simp only [Entity.images, Entity.points, shapeSrc, shape]
    exact ⟨moved.congr (by simp [or_left_comm]), by simp⟩
  · rename_i a d shapeSrc shape
    obtain ⟨_, first, h⟩ := ref.discard_bind w (child d.p0 (by simp [shape])) h
    obtain ⟨_, second, h⟩ := first.discard_bind w (child d.p1 (by simp [shape])) h
    obtain ⟨_, third, h⟩ := second.discard_bind w (child d.p2 (by simp [shape])) h
    obtain ⟨_, h⟩ := outcome_discard_eq_ok.mp h
    have moved := third.reflectPoint w (child d.p3 (by simp [shape])) h
    simp only [Entity.images, Entity.points, shapeSrc, shape]
    exact ⟨moved.congr (by simp [or_left_comm]), by simp⟩
  · cases h

/-- Objects are mirrored one after another, each with the values that those before it left. -/
theorem mirrorAll {pairs : List (ObjectId × ObjectId)} (ref : Reflected s₀ W r D s)
    (w : s₀.WellFormed) (into : ∀ pair ∈ pairs, ∀ h, s₀.Carries pair.2 h → W h)
    (h : outcome (pairs.forM fun pair => Sketch.mirrorInto r pair.1 pair.2) s = (.ok (), t)) :
    Reflected s₀ W r (pairs.flatMap (fun pair => s₀.images pair.1 pair.2) ++ D) t ∧
      ∀ pair ∈ pairs, ∀ p ∈ s₀.pointsOf pair.2, p ∈ (s₀.images pair.1 pair.2).map Prod.snd := by
  induction pairs generalizing s D with
  | nil =>
    cases h
    exact ⟨ref, by simp⟩
  | cons pair pairs ih =>
    obtain ⟨_, _, first, rest⟩ := outcome_bind_eq_ok.mp h
    obtain ⟨moved, paired⟩ := ref.mirrorInto w (into pair (by simp)) first
    obtain ⟨all, others⟩ := ih moved (fun p hp => into p (List.mem_cons_of_mem _ hp)) rest
    refine ⟨all.congr (by simp [or_left_comm]), ?_⟩
    exact List.forall_mem_cons.mpr ⟨paired, others⟩

end Reflected

end Sketch

/-- Where a modifier succeeds, every point of its targets lies at the reflection of a point of its
sources, wherever it was before. -/
theorem Constraint.mirrored_modify {c : Constraint K} {s t : Sketch K} {line : ObjectId}
    {sources : List ObjectId} (w : s.WellFormed) (modifier : c.kind.isModifier)
    (reference : c.reference = line :: sources) (h : outcome c.modify s = (.ok (), t)) :
    ∃ r, s.reflection line = .ok r ∧ ∀ pair ∈ sources.zip c.managed, ∀ p ∈ s.pointsOf pair.2,
      s.Mirrored (fun h => ∃ id ∈ c.managed, s.Carries id h) r
        ((sources.zip c.managed).flatMap fun pair => s.images pair.1 pair.2) t p := by
  unfold modify Kind.modify at h
  rw [if_pos modifier, reference] at h
  obtain ⟨r, _, asked, h⟩ := outcome_bind_eq_ok.mp (outcome_adapt_eq_ok.mp h)
  obtain ⟨across, rfl⟩ := Sketch.outcome_ask_eq_ok.mp asked
  have none : Sketch.Reflected s (fun h => ∃ id ∈ c.managed, s.Carries id h) r [] s :=
    ⟨.refl s, by simp⟩
  obtain ⟨all, paired⟩ := none.mirrorAll w
    (fun pair hpair h carried => ⟨pair.2, (List.of_mem_zip hpair).2, carried⟩) h
  refine ⟨r, across, fun pair hpair p hp => ?_⟩
  obtain ⟨image, hq, rfl⟩ := List.mem_map.mp (paired pair hpair p hp)
  rw [List.append_nil] at all
  exact all.points image (List.mem_flatMap.mpr ⟨pair, hpair, hq⟩)

end Drafting
