import Drafting.Sketch.Draw
import Drafting.Proofs.Objects
import Mathlib.Logic.Relation

namespace Drafting.Sketch

variable {K : Type} {s t u : Sketch K} {e : Entity} {hs ks : List Handle}

/-- Nothing is drawn yet, so that there is nothing out of order. -/
theorem Ordered.empty : (Sketch.empty : Sketch K).Ordered where
  rising := .nil
  numbered := by simp [Sketch.empty]
  children := by simp [Sketch.empty]

structure Grows (hs : List Handle) (s t : Sketch K) : Prop where
  entities : t.entities = s.entities
  lastObject : t.lastObject = s.lastObject
  params : s.params.Gains hs t.params
  constraintsMade : t.constraintsMade = s.constraintsMade

theorem Grows.refl (s : Sketch K) : Grows [] s s := ⟨rfl, rfl, .refl _, rfl⟩

theorem Grows.append (h : Grows hs s t) (h' : Grows ks t u) : Grows (hs ++ ks) s u :=
  ⟨h'.entities.trans h.entities, h'.lastObject.trans h.lastObject, h.params.append h'.params,
    h'.constraintsMade.trans h.constraintsMade⟩

theorem grows_addParam (p : Param K) (s : Sketch K) :
    Grows [((addParam p).run s).1] s ((addParam p).run s).2 :=
  ⟨rfl, rfl, .insert s.params p, rfl⟩

/-- One object more, which nobody owns, and its parameters. -/
structure Draws (e : Entity) (s t : Sketch K) : Prop where
  entities : t.entities = s.entities ++ [e]
  number : e.id = ⟨s.lastObject + 1⟩
  lastObject : t.lastObject = s.lastObject + 1
  unowned : e.owner = none
  points : ∀ id ∈ e.shape.children, ∃ p, s.point id = .ok p
  params : s.params.Gains e.shape.own t.params
  constraintsMade : t.constraintsMade = s.constraintsMade

theorem draws_addShape {shape : Shape} (grown : Grows shape.own s u)
    (points : ∀ id ∈ shape.children, ∃ p, s.point id = .ok p) :
    Draws ⟨⟨s.lastObject + 1⟩, shape, none⟩ s ((addShape shape).run u).2 := by
  have run : ((addShape shape).run u).2 =
      { u with
        entities := u.entities ++ [⟨⟨u.lastObject + 1⟩, shape, none⟩]
        lastObject := u.lastObject + 1 } := rfl
  rw [run, grown.entities, grown.lastObject]
  exact ⟨rfl, rfl, rfl, rfl, points, grown.params, grown.constraintsMade⟩

namespace Draws

theorem val (d : Draws e s t) : e.id.val = s.lastObject + 1 := by rw [d.number]

/-- No object had the number before. -/
theorem new (d : Draws e s t) (o : s.Ordered) : s.entity? e.id = none := by
  refine List.find?_eq_none.mpr fun x hx => ?_
  have bound := o.numbered x hx
  have ne : x.id ≠ e.id := by
    intro h
    rw [h, d.val] at bound
    omega
  simpa using ne

/-- The new object is found under its number, and all others as before. -/
theorem entity? (d : Draws e s t) (o : s.Ordered) (id : ObjectId) :
    t.entity? id = if id = e.id then some e else s.entity? id := by
  have old := d.new o
  have split : t.entity? id = (s.entity? id).or ([e].find? fun x => x.id == id) := by
    unfold Sketch.entity?
    rw [d.entities, List.find?_append]
  rw [split]
  by_cases h : id = e.id
  · subst h
    simp [old]
  · simp [h, Ne.symm h]

/-- Points stay where they were. -/
theorem point (d : Draws e s t) (o : s.Ordered) {id : ObjectId} {p : Point}
    (hp : s.point id = .ok p) : t.point id = .ok p := by
  obtain ⟨x, hx, shape⟩ := point_eq_ok_iff.mp hp
  refine point_eq_ok_iff.mpr ⟨x, ?_, shape⟩
  rw [d.entity? o]
  split
  · rename_i h
    have mem := (entity?_eq_some_iff o).mp hx
    have bound := o.numbered x mem.1
    rw [mem.2, h, d.val] at bound
    omega
  · exact hx

theorem newPoint (d : Draws e s t) (o : s.Ordered) {p : Point} (h : e.shape = .point p) :
    t.point ⟨s.lastObject + 1⟩ = .ok p := by
  refine point_eq_ok_iff.mpr ⟨e, ?_, h⟩
  rw [d.entity? o, ← d.number, if_pos rfl]

theorem ordered (d : Draws e s t) (o : s.Ordered) : t.Ordered where
  rising := by
    rw [d.entities, List.pairwise_append]
    refine ⟨o.rising, List.pairwise_singleton _ _, fun x hx y hy => ?_⟩
    have bound := o.numbered x hx
    rw [List.mem_singleton.mp hy, d.val]
    omega
  numbered := by
    intro x hx
    rw [d.entities] at hx
    rw [d.lastObject]
    rcases List.mem_append.mp hx with hx | hx
    · have bound := o.numbered x hx
      omega
    · have number := d.val
      rw [List.mem_singleton.mp hx]
      omega
  children := by
    intro x hx id hid
    rw [d.entities] at hx
    rcases List.mem_append.mp hx with hx | hx
    · obtain ⟨less, p, hp⟩ := o.children x hx id hid
      exact ⟨less, p, d.point o hp⟩
    · rw [List.mem_singleton.mp hx] at hid ⊢
      obtain ⟨p, hp⟩ := d.points id hid
      obtain ⟨y, hy, -⟩ := point_eq_ok_iff.mp hp
      have mem := (entity?_eq_some_iff o).mp hy
      have bound := o.numbered y mem.1
      refine ⟨?_, p, d.point o hp⟩
      rw [d.val, ← mem.2]
      omega

/-- Nobody owns what was drawn. -/
theorem owned (d : Draws e s t) (o : s.Ordered) (id : ObjectId) (i : ConstraintId) :
    t.owner id = .ok (some i) ↔ s.owner id = .ok (some i) := by
  rw [owner_eq_ok_iff, owner_eq_ok_iff, d.entity? o]
  split
  · rename_i h
    have old : s.entity? id = none := by
      rw [h]
      exact d.new o
    simp [old, d.unowned]
  · rfl

/-- The parameters of the new object are listed after all others. -/
theorem fields (d : Draws e s t) : t.fields = s.fields ++ e.shape.own := by
  simp [Sketch.fields, d.entities]

end Draws

def Drawn : Sketch K → Sketch K → Prop := Relation.ReflTransGen fun s t => ∃ e, Draws e s t

theorem Drawn.trans (d : Drawn s t) (d' : Drawn t u) : Drawn s u := Relation.ReflTransGen.trans d d'

theorem Drawn.ordered (d : Drawn s t) (o : s.Ordered) : t.Ordered := by
  induction d with
  | refl => exact o
  | tail _ step ih =>
    obtain ⟨e, step⟩ := step
    exact step.ordered ih

theorem Drawn.point (d : Drawn s t) (o : s.Ordered) {id : ObjectId} {p : Point}
    (hp : s.point id = .ok p) : t.point id = .ok p := by
  induction d with
  | refl => exact hp
  | tail before step ih =>
    obtain ⟨e, step⟩ := step
    exact step.point (Drawn.ordered before o) ih

/-- Every object that is drawn is there in the end. -/
theorem Drawn.eq_of_entities (d : Drawn s t) (same : t.entities = s.entities) : t = s := by
  have grows : ∀ {u : Sketch K}, Drawn s u → s.entities.length ≤ u.entities.length := by
    intro u d
    induction d with
    | refl => exact Nat.le_refl _
    | tail _ step ih =>
      obtain ⟨e, step⟩ := step
      rw [step.entities, List.length_append]
      omega
  rcases Relation.ReflTransGen.cases_tail d with rfl | ⟨u, before, e, last⟩
  · rfl
  · have more := grows before
    rw [last.entities] at same
    have less := congrArg List.length same
    rw [List.length_append, List.length_singleton] at less
    omega

/-- A shape over points that were drawn, with parameters that were added, is drawn last. -/
theorem Drawn.addShape (d : Drawn s t) {shape : Shape} (grown : Grows shape.own t u)
    (points : ∀ id ∈ shape.children, ∃ p, t.point id = .ok p) :
    Drawn s ((addShape shape).run u).2 :=
  .tail d ⟨_, draws_addShape grown points⟩

/-- A point is there as soon as it is drawn, for other shapes to be built on. -/
theorem drawn_addPoint (v : Vec K) (o : s.Ordered) :
    Drawn s ((addPoint v).run s).2 ∧
      ∃ p, ((addPoint v).run s).2.point ((addPoint v).run s).1 = .ok p := by
  have x := grows_addParam ⟨v.x, "x", []⟩ s
  have y := grows_addParam ⟨v.y, "y", []⟩ ((addParam ⟨v.x, "x", []⟩).run s).2
  have grown : Grows (Shape.point ⟨_, _⟩).own s _ := x.append y
  have draws := draws_addShape grown (by simp)
  exact ⟨.single ⟨_, draws⟩, _, draws.newPoint o rfl⟩

theorem drawn_addCircle (center : Vec K) (r : K) (o : s.Ordered) :
    Drawn s ((addCircle center r).run s).2 := by
  obtain ⟨d, c⟩ := drawn_addPoint center o
  refine d.addShape (grows_addParam ⟨r, "r", []⟩ _) ?_
  simp only [Shape.children_circle, List.forall_mem_cons]
  exact ⟨c, by simp⟩

theorem drawn_addEllipse (ep1 ep2 : Vec K) (r : K) (o : s.Ordered) :
    Drawn s ((addEllipse ep1 ep2 r).run s).2 := by
  obtain ⟨d₁, p₁, h₁⟩ := drawn_addPoint ep1 o
  have o₁ := d₁.ordered o
  obtain ⟨d₂, h₂⟩ := drawn_addPoint ep2 o₁
  refine (d₁.trans d₂).addShape (grows_addParam ⟨r, "r", []⟩ _) ?_
  simp only [Shape.children_ellipse, List.forall_mem_cons]
  exact ⟨⟨p₁, d₂.point o₁ h₁⟩, h₂, by simp⟩

theorem drawn_addBezier (p0 p1 p2 p3 : Vec K) (o : s.Ordered) :
    Drawn s ((addBezier p0 p1 p2 p3).run s).2 := by
  obtain ⟨d₀, q₀, h₀⟩ := drawn_addPoint p0 o
  have o₀ := d₀.ordered o
  obtain ⟨d₁, q₁, h₁⟩ := drawn_addPoint p1 o₀
  have o₁ := d₁.ordered o₀
  obtain ⟨d₂, q₂, h₂⟩ := drawn_addPoint p2 o₁
  have o₂ := d₂.ordered o₁
  obtain ⟨d₃, h₃⟩ := drawn_addPoint p3 o₂
  refine (((d₀.trans d₁).trans d₂).trans d₃).addShape (.refl _) ?_
  simp only [Shape.children_bezier, List.forall_mem_cons]
  exact ⟨⟨q₀, d₃.point o₂ (d₂.point o₁ (d₁.point o₀ h₀))⟩, h₃,
    ⟨q₁, d₃.point o₂ (d₂.point o₁ h₁)⟩, ⟨q₂, d₃.point o₂ h₂⟩, by simp⟩

variable [Scalar K]

/-- Between points that are there a segment is drawn in one step. -/
theorem drawn_addSegmentOver {a b : ObjectId} {p q : Point} (ha : s.point a = .ok p)
    (hb : s.point b = .ok q) (d : Vec K) : Drawn s ((addSegmentOver a b d).run s).2 := by
  have ang := grows_addParam ⟨d.direction, "ang", []⟩ s
  refine Drawn.addShape .refl (ang.append (grows_addParam ⟨d.norm, "t", []⟩ _)) ?_
  simp [ha, hb]

theorem points_of_step {a b : ObjectId} {d : Vec K} (h : s.step a b = .ok d) :
    (∃ p, s.point a = .ok p) ∧ ∃ q, s.point b = .ok q := by
  obtain ⟨_, finish, h⟩ := bind_eq_ok.mp h
  obtain ⟨_, start, -⟩ := bind_eq_ok.mp h
  obtain ⟨q, hq, -⟩ := bind_eq_ok.mp finish
  obtain ⟨p, hp, -⟩ := bind_eq_ok.mp start
  exact ⟨⟨p, hp⟩, q, hq⟩

theorem drawn_addSegment (start finish : Vec K) (o : s.Ordered) :
    Drawn s ((addSegment start finish).run s).2 := by
  obtain ⟨d₁, p₁, h₁⟩ := drawn_addPoint start o
  have o₁ := d₁.ordered o
  obtain ⟨d₂, h₂⟩ := drawn_addPoint finish o₁
  have ang := grows_addParam ⟨(finish.sub start).direction, "ang", []⟩
    ((addPoint finish).run ((addPoint start).run s).2).2
  refine (d₁.trans d₂).addShape (ang.append (grows_addParam
    ⟨Scalar.hypot (finish.sub start).x (finish.sub start).y, "t", []⟩ _)) ?_
  simp only [Shape.children_segment, List.forall_mem_cons]
  exact ⟨⟨p₁, d₂.point o₁ h₁⟩, h₂, by simp⟩

theorem drawn_addArc (center : Vec K) (r ang1 ang2 : K) (o : s.Ordered) :
    Drawn s ((addArc center r ang1 ang2).run s).2 := by
  obtain ⟨dc, pc, hc⟩ := drawn_addPoint center o
  have oc := dc.ordered o
  obtain ⟨da, pa, ha⟩ := drawn_addPoint (onCircle center r ang1) oc
  have oa := da.ordered oc
  obtain ⟨db, hb⟩ := drawn_addPoint (onCircle center r ang2) oa
  have radius := grows_addParam ⟨r, "r", []⟩ ((addPoint (onCircle center r ang2)).run
    ((addPoint (onCircle center r ang1)).run ((addPoint center).run s).2).2).2
  have grown := (radius.append (grows_addParam ⟨ang1, "ang1", []⟩ _)).append
    (grows_addParam ⟨ang2, "ang2", []⟩ _)
  refine ((dc.trans da).trans db).addShape grown ?_
  simp only [Shape.children_arc, List.forall_mem_cons]
  exact ⟨⟨pa, db.point oa ha⟩, hb, ⟨pc, db.point oa (da.point oc hc)⟩, by simp⟩

end Drafting.Sketch
