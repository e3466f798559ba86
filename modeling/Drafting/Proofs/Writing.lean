import Drafting.Constraint
import Drafting.Proofs.Objects

namespace Drafting

variable {K : Type}

namespace Sketch

variable {s t u : Sketch K} {W : Handle → Prop} {id c : ObjectId} {h : Handle} {hs : List Handle}

/-- The parameter is one of the object itself or a coordinate of a point it is built on. -/
def Carries (s : Sketch K) (id : ObjectId) (h : Handle) : Prop :=
  ∃ e, s.entity? id = some e ∧ (h ∈ e.shape.own ∨
    ∃ c ∈ e.shape.children, ∃ p, s.point c = .ok p ∧ (h = p.x ∨ h = p.y))

theorem carries_of_point {p : Point} (hp : s.point id = .ok p) :
    s.Carries id p.x ∧ s.Carries id p.y := by
  obtain ⟨e, he, shape⟩ := point_eq_ok_iff.mp hp
  constructor <;> exact ⟨e, he, .inl (by simp [shape])⟩

def visitedPart (s : Sketch K) (part : Part) : List Handle :=
  (s.partParams part).toOption.getD []

/-- The parameters of an object in the order they are listed, as far as its points are there. -/
def visited (s : Sketch K) (id : ObjectId) : List Handle :=
  match s.entity? id with
  | none => []
  | some e => e.shape.parts.flatMap s.visitedPart

theorem mem_visitedPart_own {k : Handle} : h ∈ s.visitedPart (.own k) ↔ h = k :=
  List.mem_singleton

theorem visitedPart_child {p : Point} (hp : s.point c = .ok p) :
    s.visitedPart (.child c) = [p.x, p.y] := by
  rw [visitedPart, partParams_child hp]
  rfl

theorem mem_visitedPart_child :
    h ∈ s.visitedPart (.child c) ↔ ∃ p, s.point c = .ok p ∧ (h = p.x ∨ h = p.y) := by
  cases hp : s.point c with
  | error e =>
    have none : s.partParams (.child c) = .error e := by
      rw [partParams, hp]
      rfl
    rw [visitedPart, none]
    simp [Except.toOption]
  | ok p =>
    rw [visitedPart_child hp]
    simp

/-- Also of an object whose points are not all there, what is listed is what it carries. -/
theorem mem_visited : h ∈ s.visited id ↔ s.Carries id h := by
  rw [visited]
  cases he : s.entity? id with
  | none =>
    refine ⟨fun hh => by simp at hh, fun ⟨e, found, _⟩ => ?_⟩
    rw [he] at found
    cases found
  | some e =>
    simp only [List.mem_flatMap]
    constructor
    · intro ⟨part, hp, hh⟩
      refine ⟨e, he, ?_⟩
      cases part with
      | own k =>
        obtain rfl := mem_visitedPart_own.mp hh
        exact .inl (Shape.mem_own.mpr hp)
      | child c => exact .inr ⟨c, Shape.mem_children.mpr hp, mem_visitedPart_child.mp hh⟩
    · intro ⟨d, hd, carried⟩
      obtain rfl := Option.some.inj (he.symm.trans hd)
      rcases carried with own | ⟨c, hc, point⟩
      · exact ⟨.own h, Shape.mem_own.mp own, mem_visitedPart_own.mpr rfl⟩
      · exact ⟨.child c, Shape.mem_children.mp hc, mem_visitedPart_child.mpr point⟩

theorem visited_of_objectParams (listed : s.objectParams id = .ok hs) : s.visited id = hs := by
  obtain ⟨e, he, hparts⟩ := bind_eq_ok.mp listed
  obtain ⟨lists, hlists, flat⟩ := bind_eq_ok.mp hparts
  cases flat
  rw [visited, entity_eq_ok_iff.mp he]
  exact flatMap_of_mapM hlists

/-- The listed parameters of an object are those it carries. -/
theorem mem_objectParams (listed : s.objectParams id = .ok hs) : h ∈ hs ↔ s.Carries id h := by
  rw [← visited_of_objectParams listed]
  exact mem_visited

/-- Only values changed, and only of the parameters in `W`. -/
structure Writes (W : Handle → Prop) (s t : Sketch K) : Prop where
  entities : t.entities = s.entities
  lastObject : t.lastObject = s.lastObject
  constraintsMade : t.constraintsMade = s.constraintsMade
  others : ∀ h, ¬ W h → t.param? h = s.param? h
  kept : ∀ h, (t.param? h).map (fun p => (p.name, p.bounds)) =
    (s.param? h).map fun p => (p.name, p.bounds)

namespace Writes

theorem refl (s : Sketch K) : s.Writes W s := ⟨rfl, rfl, rfl, fun _ _ => rfl, fun _ => rfl⟩

theorem trans (w : s.Writes W t) (w' : t.Writes W u) : s.Writes W u :=
  ⟨w'.entities.trans w.entities, w'.lastObject.trans w.lastObject,
    w'.constraintsMade.trans w.constraintsMade, fun h hh => (w'.others h hh).trans (w.others h hh),
    fun h => (w'.kept h).trans (w.kept h)⟩

theorem setValue (hh : W h) (s : Sketch K) (x : K) : s.Writes W (s.setValue h x) := by
  refine ⟨rfl, rfl, rfl, ?_, ?_⟩
  · intro k hk
    have ne : k ≠ h := fun e => hk (e ▸ hh)
    exact s.params.get?_update_of_ne ne _
  · intro k
    by_cases e : k = h
    · subst e
      simp only [param?, Sketch.setValue, Store.get?_update_self, Option.map_map]
      rfl
    · rw [param?, Sketch.setValue, s.params.get?_update_of_ne e]
      rfl

theorem setPosition {v : Vec K} [Scalar K] (ht : s.setPosition id v = .ok t)
    (into : ∀ p, s.point id = .ok p → W p.x ∧ W p.y) : s.Writes W t := by
  obtain ⟨p, hp, hset⟩ := bind_eq_ok.mp ht
  cases hset
  obtain ⟨hx, hy⟩ := into p hp
  exact (Writes.setValue hx s _).trans (.setValue hy _ _)

theorem sameShapes (w : s.Writes W t) : s.SameShapes t := ⟨by rw [w.entities], w.lastObject⟩

/-- What is live stays live, and nothing else comes to be. -/
theorem live (w : s.Writes W t) (h : Handle) : (t.param? h).isSome = (s.param? h).isSome := by
  have kept := congrArg Option.isSome (w.kept h)
  simpa using kept

end Writes

/-- Steps that write within `W` while the objects are those of `s₀`. -/
def Writing (s₀ : Sketch K) (W : Handle → Prop) (s t : Sketch K) : Prop :=
  s.entities = s₀.entities → s.Writes W t

section Mirroring

variable {s₀ : Sketch K} {target : ObjectId}

theorem Writing.refl (s : Sketch K) : Writing s₀ W s s := fun _ => .refl s

theorem Writing.trans (w : Writing s₀ W s t) (w' : Writing s₀ W t u) : Writing s₀ W s u := by
  intro same
  have first := w same
  exact first.trans (w' (first.entities.trans same))

/-- A question that fails writes nothing. -/
theorem writes_ask_bind {ε α β : Type} {f : Sketch K → Except ε α} {g : α → Edit K ε β}
    (h : ∀ a, f s = .ok a → s.Writes W (outcome (g a) s).2) :
    s.Writes W (outcome (ask f >>= g) s).2 := by
  rw [outcome_bind, outcome_ask]
  cases answer : f s with
  | ok a => exact h a answer
  | error e => exact .refl s

/-- What is written before a failure is within the same parameters as the rest. -/
theorem Writing.bind {ε α β : Type} {m : ExceptT ε (StateM (Sketch K)) α}
    {f : α → ExceptT ε (StateM (Sketch K)) β} (hm : Leads (Writing s₀ W) m)
    (hf : ∀ a, Leads (Writing s₀ W) (f a)) : Leads (Writing s₀ W) (m >>= f) :=
  Leads.bind (R := Writing s₀ W) Writing.trans hm hf

theorem carries_of_child {e : Entity} {c : ObjectId} {p : Point} (he : s.entity? id = some e)
    (hc : c ∈ e.shape.children) (hp : s.point c = .ok p) : s.Carries id p.x ∧ s.Carries id p.y :=
  ⟨⟨e, he, .inr ⟨c, hc, p, hp, .inl rfl⟩⟩, ⟨e, he, .inr ⟨c, hc, p, hp, .inr rfl⟩⟩⟩

/-- Where everything that an object carries may be written, so may its own parameters and the
coordinates of its points. -/
theorem own_into {e : Entity} (he : s.entity? id = some e) (into : ∀ h, s.Carries id h → W h) :
    ∀ h ∈ e.shape.own, W h :=
  fun h hh => into h ⟨e, he, .inl hh⟩

theorem point_into (into : ∀ h, s.Carries id h → W h) :
    ∀ p, s.point id = .ok p → W p.x ∧ W p.y := by
  intro p hp
  obtain ⟨hx, hy⟩ := carries_of_point hp
  exact ⟨into _ hx, into _ hy⟩

theorem child_into {e : Entity} (he : s.entity? id = some e) (into : ∀ h, s.Carries id h → W h) :
    ∀ c ∈ e.shape.children, ∀ p, s.point c = .ok p → W p.x ∧ W p.y := by
  intro c hc p hp
  obtain ⟨hx, hy⟩ := carries_of_child he hc hp
  exact ⟨into _ hx, into _ hy⟩

variable [Scalar K] (r : Reflection K) (source : ObjectId)

omit [Scalar K] in
theorem leads_writeValue (hh : W h) (x : K) : Leads (Writing s₀ W) (writeValue h x) :=
  fun s _ => .setValue hh s x

theorem leads_copyValue (hh : W h) (source : Handle) : Leads (Writing s₀ W) (copyValue source h) :=
  fun s _ => .setValue hh s _

/-- The target alone is written, however the source is found. -/
theorem leads_reflectPoint (into : ∀ p, s₀.point target = .ok p → W p.x ∧ W p.y) :
    Leads (Writing s₀ W) (reflectPoint r source target) := by
  intro s same
  refine writes_ask_bind fun v _ => ?_
  refine writes_ask_bind fun t ht => ?_
  exact .setPosition ht fun p hp => into p ((point_congr same target).symm.trans hp)

theorem leads_mirrorSegment (a d : Segment)
    (child : ∀ c ∈ (Shape.segment d).children, ∀ p, s₀.point c = .ok p → W p.x ∧ W p.y)
    (own : ∀ h ∈ (Shape.segment d).own, W h) :
    Leads (Writing s₀ W) (mirrorSegment r a d) := by
  refine Writing.bind (leads_reflectPoint r a.a (child d.a ?_)) fun p => ?_
  · simp
  refine Writing.bind (leads_reflectPoint r a.b (child d.b ?_)) fun q => ?_
  · simp
  refine Writing.bind (leads_writeValue (own d.ang ?_) _) fun _ => ?_
  · simp
  refine leads_copyValue (own d.t ?_) a.t
  simp

theorem leads_mirrorArc (a d : Arc)
    (child : ∀ c ∈ (Shape.arc d).children, ∀ p, s₀.point c = .ok p → W p.x ∧ W p.y)
    (own : ∀ h ∈ (Shape.arc d).own, W h) :
    Leads (Writing s₀ W) (mirrorArc r a d) := by
  refine Writing.bind (leads_reflectPoint r a.c (child d.c ?_)) fun _ => ?_
  · simp
  refine Writing.bind (leads_reflectPoint r a.b (child d.a ?_)) fun _ => ?_
  · simp
  refine Writing.bind (leads_reflectPoint r a.a (child d.b ?_)) fun _ => ?_
  · simp
  refine Writing.bind (leads_copyValue (own d.r ?_) a.r) fun _ => ?_
  · simp
  refine Writing.bind (leads_writeValue (own d.ang1 ?_) _) fun _ => ?_
  · simp
  refine leads_writeValue (own d.ang2 ?_) _
  simp

/-- A mirrored object is written within what it carries. -/
theorem leads_mirrorInto (into : ∀ h, s₀.Carries target h → W h) :
    Leads (Writing s₀ W) (mirrorInto r source target) := by
  intro s same
  refine writes_ask_bind fun src _ => ?_
  refine writes_ask_bind fun dst hdst => ?_
  have found : s₀.entity? target = some dst :=
    (entity?_congr same target).symm.trans (entity_eq_ok_iff.mp hdst)
  have own := own_into found into
  have child := child_into found into
  have reflected : ∀ a, ∀ c ∈ dst.shape.children,
      Leads (Writing s₀ W) (discard (reflectPoint r a c)) :=
    fun a c hc => (leads_reflectPoint r a (child c hc)).discard
  split
  · exact (leads_reflectPoint r source (point_into into)).discard s same
  · rename_i a d _ hd
    rw [hd] at child own
    exact leads_mirrorSegment r a d child own s same
  · rename_i a d _ hd
    rw [hd] at reflected own
    refine Writing.bind (reflected a.c d.c ?_) (fun _ => ?_) s same
    · simp
    · exact leads_copyValue (own d.r (by simp)) a.r
  · rename_i a d _ hd
    rw [hd] at child own
    exact leads_mirrorArc r a d child own s same
  · rename_i a d _ hd
    rw [hd] at reflected own
    refine Writing.bind (reflected a.ep1 d.ep1 ?_) (fun _ => ?_) s same
    · simp
    refine Writing.bind (reflected a.ep2 d.ep2 ?_) fun _ => ?_
    · simp
    · exact leads_copyValue (own d.r (by simp)) a.r
  · rename_i a d _ hd
    rw [hd] at reflected
    refine Writing.bind (reflected a.p0 d.p0 ?_) (fun _ => ?_) s same
    · simp
    refine Writing.bind (reflected a.p1 d.p1 ?_) fun _ => ?_
    · simp
    refine Writing.bind (reflected a.p2 d.p2 ?_) fun _ => ?_
    · simp
    refine reflected a.p3 d.p3 ?_
    simp
  · exact .refl s

/-- A modifier writes only what its targets carry. -/
theorem leads_modify (k : Kind) (reference managed : List ObjectId)
    (into : ∀ id ∈ managed, ∀ h, s₀.Carries id h → W h) :
    Leads (Writing s₀ W) (k.modify reference managed) := by
  intro s same
  unfold Kind.modify
  split
  · cases reference with
    | nil => exact .refl s
    | cons line sources =>
      rw [outcome_adapt]
      refine writes_ask_bind fun r _ => ?_
      refine Leads.forM (R := Writing s₀ W) Writing.refl Writing.trans (fun pair hp => ?_) s same
      exact leads_mirrorInto r pair.1 (into pair.2 (List.of_mem_zip hp).2)
  · exact .refl s

end Mirroring

end Sketch

/-- Whether it fails or not, a modifier writes only what its targets carry. -/
theorem Constraint.writes_modify [Scalar K] (c : Constraint K) (s : Sketch K) :
    s.Writes (fun h => ∃ id ∈ c.managed, s.Carries id h) (outcome c.modify s).2 :=
  Sketch.leads_modify c.kind c.reference c.managed (fun id hid _ hh => ⟨id, hid, hh⟩) s rfl

end Drafting
