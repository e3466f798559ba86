import Drafting.Sketch.Mirror
import Drafting.Proofs.Allocation
import Drafting.Proofs.Outcome

namespace Drafting

def Shape.own (s : Shape) : List Handle :=
  s.parts.filterMap fun
    | .own h => some h
    | .child _ => none

def Shape.children (s : Shape) : List ObjectId :=
  s.parts.filterMap fun
    | .own _ => none
    | .child id => some id

section Shape

variable (p : Point) (g : Segment) (c : Circle) (a : Arc) (e : Ellipse) (b : Bezier)

@[simp] theorem Shape.own_point : (Shape.point p).own = [p.x, p.y] := rfl

@[simp] theorem Shape.own_segment : (Shape.segment g).own = [g.ang, g.t] := rfl

@[simp] theorem Shape.own_circle : (Shape.circle c).own = [c.r] := rfl

@[simp] theorem Shape.own_arc : (Shape.arc a).own = [a.r, a.ang1, a.ang2] := rfl

@[simp] theorem Shape.own_ellipse : (Shape.ellipse e).own = [e.r] := rfl

@[simp] theorem Shape.own_bezier : (Shape.bezier b).own = [] := rfl

@[simp] theorem Shape.children_point : (Shape.point p).children = [] := rfl

@[simp] theorem Shape.children_segment : (Shape.segment g).children = [g.a, g.b] := rfl

@[simp] theorem Shape.children_circle : (Shape.circle c).children = [c.c] := rfl

@[simp] theorem Shape.children_arc : (Shape.arc a).children = [a.a, a.b, a.c] := rfl

@[simp] theorem Shape.children_ellipse : (Shape.ellipse e).children = [e.ep1, e.ep2] := rfl

@[simp] theorem Shape.children_bezier : (Shape.bezier b).children = [b.p0, b.p3, b.p1, b.p2] := rfl

end Shape

theorem Shape.mem_own {s : Shape} {h : Handle} : h ∈ s.own ↔ .own h ∈ s.parts := by
  simp only [own, List.mem_filterMap]
  constructor
  · intro ⟨part, hp, he⟩
    cases part with
    | own k =>
      cases he
      exact hp
    | child id => cases he
  · exact fun hp => ⟨_, hp, rfl⟩

theorem Shape.mem_children {s : Shape} {id : ObjectId} :
    id ∈ s.children ↔ .child id ∈ s.parts := by
  simp only [children, List.mem_filterMap]
  constructor
  · intro ⟨part, hp, he⟩
    cases part with
    | own k => cases he
    | child id =>
      cases he
      exact hp
  · exact fun hp => ⟨_, hp, rfl⟩

def Entity.drawn (e : Entity) : ObjectId × Shape := (e.id, e.shape)

namespace Sketch

variable {K : Type} {s t u : Sketch K} {id : ObjectId}

@[simp] theorem outcome_ask {ε α : Type} (f : Sketch K → Except ε α) (s : Sketch K) :
    outcome (ask f) s = (f s, s) := by
  unfold ask
  rw [outcome_bind_ok (outcome_get s)]
  cases f s <;> rfl

theorem outcome_ask_eq_ok {ε α : Type} {f : Sketch K → Except ε α} {a : α} :
    outcome (ask f) s = (.ok a, t) ↔ f s = .ok a ∧ s = t := by
  rw [outcome_ask, Prod.mk.injEq]

/-- Objects stand in the order of their numbers, which were all given, and are built on points that
were drawn before them. -/
structure Ordered (s : Sketch K) : Prop where
  rising : s.entities.Pairwise fun d e => d.id.val < e.id.val
  numbered : ∀ e ∈ s.entities, e.id.val ≤ s.lastObject
  children : ∀ e ∈ s.entities, ∀ id ∈ e.shape.children,
    id.val < e.id.val ∧ ∃ p, s.point id = .ok p

theorem entity?_eq_some_iff (o : s.Ordered) {e : Entity} :
    s.entity? id = some e ↔ e ∈ s.entities ∧ e.id = id := by
  constructor
  · intro h
    exact ⟨List.mem_of_find?_eq_some h, by simpa using List.find?_some h⟩
  · intro ⟨he, number⟩
    subst number
    obtain ⟨before, after, hsplit⟩ := List.append_of_mem he
    refine List.find?_eq_some_iff_append.mpr ⟨by simp, before, after, hsplit, ?_⟩
    intro d hd
    have rising := o.rising
    rw [hsplit] at rising
    have less := (List.pairwise_append.mp rising).2.2 d hd e (by simp)
    have ne : d.id ≠ e.id := fun h => by
      rw [h] at less
      omega
    simpa using ne

def Keyed (s : Sketch K) : Prop := ∀ e ∈ s.entities, s.entity? e.id = some e

/-- No two objects that are in order have the same number. -/
theorem Ordered.keyed (o : s.Ordered) : s.Keyed :=
  fun _ he => (entity?_eq_some_iff o).mpr ⟨he, rfl⟩

theorem id_of_entity? {e : Entity} (h : s.entity? id = some e) : e.id = id := by
  simpa using List.find?_some h

theorem entity_eq_ok_iff {e : Entity} : s.entity id = .ok e ↔ s.entity? id = some e := by
  unfold entity
  cases s.entity? id <;> simp

/-- An object is seen as a shape just if it is there and has that shape. -/
theorem asA_eq_ok_iff {α : Type} {expected : ShapeClass} {view : Shape → Option α} {a : α} :
    s.asA id expected view = .ok a ↔ ∃ e, s.entity? id = some e ∧ view e.shape = some a := by
  rw [asA, bind_eq_ok]
  refine exists_congr fun e => and_congr entity_eq_ok_iff ?_
  cases view e.shape <;> simp [pure, Except.pure]

theorem point_eq_ok_iff {p : Point} :
    s.point id = .ok p ↔ ∃ e, s.entity? id = some e ∧ e.shape = .point p := by
  rw [point, asA_eq_ok_iff]
  have view : ∀ x : Shape, x.point? = some p ↔ x = .point p := by
    intro x
    cases x <;> simp [Shape.point?]
  simp only [view]

/-- A point that a shape is built on counts with its two coordinates. -/
theorem partParams_child {p : Point} (hp : s.point id = .ok p) :
    s.partParams (.child id) = .ok [p.x, p.y] :=
  bind_eq_ok.mpr ⟨p, hp, rfl⟩

theorem value_of_param? [Scalar K] {h : Handle} {p : Param K} (hp : s.param? h = some p) :
    s.value h = p.value := by
  rw [value, hp]

/-- A point has a position even where its coordinates are gone. -/
theorem position_of_point [Scalar K] {p : Point} (hp : s.point id = .ok p) :
    s.position id = .ok ⟨s.value p.x, s.value p.y⟩ := by
  rw [position, hp]
  rfl

/-- Parameters have no part in how objects are found. -/
theorem entity?_congr (h : t.entities = s.entities) (id : ObjectId) :
    t.entity? id = s.entity? id := by
  unfold entity?
  rw [h]

theorem entity_congr (h : t.entities = s.entities) (id : ObjectId) : t.entity id = s.entity id := by
  simp only [entity, entity?_congr h]

/-- An object is found wherever only values are different. -/
theorem entity_of_entity? {e : Entity} (found : s.entity? id = some e) (t : Sketch K)
    (h : t.entities = s.entities) : t.entity id = .ok e :=
  (entity_congr h id).trans (entity_eq_ok_iff.mpr found)

theorem point_congr (h : t.entities = s.entities) (id : ObjectId) : t.point id = s.point id := by
  simp only [point, asA, entity_congr h]

theorem owner_congr (h : t.entities = s.entities) (id : ObjectId) : t.owner id = s.owner id := by
  simp only [owner, entity_congr h]

theorem owner_eq_ok_iff {o : Option ConstraintId} :
    s.owner id = .ok o ↔ ∃ e, s.entity? id = some e ∧ e.owner = o := by
  rw [owner, bind_eq_ok]
  refine exists_congr fun e => and_congr entity_eq_ok_iff ?_
  simp [pure, Except.pure]

/-- The question for an owner fails for missing objects only. -/
theorem owner_eq_error_iff {e : SketchError} :
    s.owner id = .error e ↔ s.entity? id = none ∧ e = .unknownObject id := by
  unfold owner entity
  cases s.entity? id with
  | none =>
    constructor
    · intro failed
      cases failed
      exact ⟨rfl, rfl⟩
    · rintro ⟨-, rfl⟩
      rfl
  | some d => exact iff_of_false (fun failed => by cases failed) fun missing => nomatch missing.1

theorem owner_of_mem (keyed : s.Keyed) {e : Entity} (he : e ∈ s.entities) :
    s.owner e.id = .ok e.owner :=
  owner_eq_ok_iff.mpr ⟨e, keyed e he, rfl⟩

/-- Objects after a change of every object that keeps the numbers. -/
theorem entity?_map {f : Entity → Entity} (h : t.entities = s.entities.map f)
    (number : ∀ e, (f e).id = e.id) (id : ObjectId) : t.entity? id = (s.entity? id).map f := by
  have test : (fun e : Entity => e.id == id) ∘ f = fun e => e.id == id := by
    funext e
    simp only [Function.comp_apply, number]
  rw [entity?, h, List.find?_map, test]
  rfl

theorem owner_map {f : Entity → Entity} (h : t.entities = s.entities.map f)
    (number : ∀ e, (f e).id = e.id) {o : Option ConstraintId} :
    t.owner id = .ok o ↔ ∃ e, s.entity? id = some e ∧ (f e).owner = o := by
  rw [owner_eq_ok_iff, entity?_map h number]
  cases s.entity? id <;> simp

/-- The same objects, whoever owns them. -/
structure SameShapes (s t : Sketch K) : Prop where
  drawn : t.entities.map Entity.drawn = s.entities.map Entity.drawn
  lastObject : t.lastObject = s.lastObject

theorem SameShapes.refl (s : Sketch K) : SameShapes s s := ⟨rfl, rfl⟩

/-- Any change of single objects that leaves their numbers and their shapes. -/
theorem SameShapes.of_map {f : Entity → Entity} (h : t.entities = s.entities.map f)
    (drawn : ∀ e, (f e).drawn = e.drawn) (lastObject : t.lastObject = s.lastObject) :
    SameShapes s t := by
  refine ⟨?_, lastObject⟩
  rw [h, List.map_map]
  exact List.map_congr_left fun e _ => drawn e

theorem SameShapes.symm (h : SameShapes s t) : SameShapes t s :=
  ⟨h.drawn.symm, h.lastObject.symm⟩

theorem SameShapes.trans (h : SameShapes s t) (h' : SameShapes t u) : SameShapes s u :=
  ⟨h'.drawn.trans h.drawn, h'.lastObject.trans h.lastObject⟩

theorem SameShapes.entity? (h : SameShapes s t) (id : ObjectId) :
    (t.entity? id).map Entity.drawn = (s.entity? id).map Entity.drawn := by
  have find : ∀ r : Sketch K, (r.entity? id).map Entity.drawn =
      (r.entities.map Entity.drawn).find? fun d => d.1 == id := by
    intro r
    rw [List.find?_map]
    rfl
  rw [find, find, h.drawn]

theorem SameShapes.point (h : SameShapes s t) {p : Point} (hp : s.point id = .ok p) :
    t.point id = .ok p := by
  obtain ⟨e, he, hs⟩ := point_eq_ok_iff.mp hp
  have drawn := h.entity? id
  rw [he] at drawn
  obtain ⟨d, hd, same⟩ := Option.map_eq_some_iff.mp drawn
  exact point_eq_ok_iff.mpr ⟨d, hd, (Prod.mk.inj same).2.trans hs⟩

theorem SameShapes.known (h : SameShapes s t) {o : Option ConstraintId}
    (ho : s.owner id = .ok o) : ∃ e, t.entity? id = some e := by
  obtain ⟨e, he, -⟩ := owner_eq_ok_iff.mp ho
  have drawn := h.entity? id
  rw [he] at drawn
  obtain ⟨d, hd, -⟩ := Option.map_eq_some_iff.mp drawn
  exact ⟨d, hd⟩

theorem SameShapes.mem (h : SameShapes s t) {d : Entity} (hd : d ∈ t.entities) :
    ∃ e ∈ s.entities, e.id = d.id ∧ e.shape = d.shape := by
  have hm : d.drawn ∈ s.entities.map Entity.drawn := h.drawn ▸ List.mem_map_of_mem hd
  obtain ⟨e, he, same⟩ := List.mem_map.mp hm
  exact ⟨e, he, (Prod.mk.inj same).1, (Prod.mk.inj same).2⟩

/-- The order of objects does not depend on who owns them. -/
theorem Ordered.sameShapes (o : s.Ordered) (h : SameShapes s t) : t.Ordered where
  rising := by
    have rising : (s.entities.map Entity.drawn).Pairwise fun c d => c.1.val < d.1.val :=
      List.pairwise_map.mpr o.rising
    rw [← h.drawn, List.pairwise_map] at rising
    exact rising
  numbered := by
    intro d hd
    obtain ⟨e, he, same, -⟩ := h.mem hd
    rw [← same, h.lastObject]
    exact o.numbered e he
  children := by
    intro d hd id hid
    obtain ⟨e, he, same, shape⟩ := h.mem hd
    obtain ⟨less, p, hp⟩ := o.children e he id (shape ▸ hid)
    exact ⟨same ▸ less, p, h.point hp⟩

def fields (s : Sketch K) : List Handle := s.entities.flatMap (·.shape.own)

theorem SameShapes.fields (h : SameShapes s t) : t.fields = s.fields := by
  have drawn : ∀ r : Sketch K, r.fields = (r.entities.map Entity.drawn).flatMap (·.2.own) := by
    intro r
    rw [List.flatMap_map]
    rfl
  rw [drawn, drawn, h.drawn]

def Live (s : Sketch K) : Prop := ∀ h ∈ s.fields, (s.param? h).isSome

/-- An object of the sketch has the parameters that it names as its own. -/
theorem Live.of_own (live : s.Live) {e : Entity} (he : s.entity? id = some e) {h : Handle}
    (own : h ∈ e.shape.own) : (s.param? h).isSome :=
  live h (List.mem_flatMap.mpr ⟨e, List.mem_of_find?_eq_some he, own⟩)

theorem Live.point (live : s.Live) {p : Point} (hp : s.point id = .ok p) :
    (s.param? p.x).isSome ∧ (s.param? p.y).isSome := by
  obtain ⟨e, he, shape⟩ := point_eq_ok_iff.mp hp
  constructor
  · exact live.of_own he (by simp [shape])
  · exact live.of_own he (by simp [shape])

theorem Live.ellipse (live : s.Live) {x : Ellipse} (hx : s.ellipse id = .ok x) :
    (s.param? x.r).isSome := by
  obtain ⟨⟨number, shape, owner⟩, he, hv⟩ := asA_eq_ok_iff.mp hx
  cases shape <;> cases hv
  exact live.of_own he (by simp)

end Sketch

end Drafting
