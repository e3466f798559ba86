import Drafting.Proofs.Reflecting
import Drafting.Proofs.Scoping

namespace Drafting

variable {K : Type}

namespace Sketch

variable {s : Sketch K} {id c : ObjectId} {e : Entity} {h : Handle} {hs : List Handle}

/-- The documented order of the parameters of a shape. -/
inductive Lists (s : Sketch K) : Shape → List Handle → Prop where
  | point (p : Point) : s.Lists (.point p) [p.x, p.y]
  | segment (g : Segment) {a b : Point} (ha : s.point g.a = .ok a) (hb : s.point g.b = .ok b) :
    s.Lists (.segment g) [a.x, a.y, b.x, b.y, g.ang, g.t]
  | circle (x : Circle) {c : Point} (hc : s.point x.c = .ok c) :
    s.Lists (.circle x) [c.x, c.y, x.r]
  | arc (x : Arc) {a b c : Point} (ha : s.point x.a = .ok a) (hb : s.point x.b = .ok b)
    (hc : s.point x.c = .ok c) :
    s.Lists (.arc x) [x.r, x.ang1, x.ang2, a.x, a.y, b.x, b.y, c.x, c.y]
  | ellipse (x : Ellipse) {p q : Point} (hp : s.point x.ep1 = .ok p) (hq : s.point x.ep2 = .ok q) :
    s.Lists (.ellipse x) [p.x, p.y, q.x, q.y, x.r]
  | bezier (x : Bezier) {p q u v : Point} (hp : s.point x.p0 = .ok p) (hq : s.point x.p1 = .ok q)
    (hu : s.point x.p2 = .ok u) (hv : s.point x.p3 = .ok v) :
    s.Lists (.bezier x) [p.x, p.y, v.x, v.y, q.x, q.y, u.x, u.y]

theorem Lists.length {x : Shape} (listed : s.Lists x hs) : hs.length = x.kind.span := by
  cases listed <;> rfl

/-- Where the points of a shape are there, its parameters are in order. -/
theorem exists_lists {x : Shape} (points : ∀ c ∈ x.children, ∃ p, s.point c = .ok p) :
    ∃ hs, s.Lists x hs := by
  cases x with
  | point p => exact ⟨_, .point p⟩
  | segment g =>
    obtain ⟨a, ha⟩ := points g.a (by simp)
    obtain ⟨b, hb⟩ := points g.b (by simp)
    exact ⟨_, .segment g ha hb⟩
  | circle x =>
    obtain ⟨c, hc⟩ := points x.c (by simp)
    exact ⟨_, .circle x hc⟩
  | arc x =>
    obtain ⟨a, ha⟩ := points x.a (by simp)
    obtain ⟨b, hb⟩ := points x.b (by simp)
    obtain ⟨c, hc⟩ := points x.c (by simp)
    exact ⟨_, .arc x ha hb hc⟩
  | ellipse x =>
    obtain ⟨p, hp⟩ := points x.ep1 (by simp)
    obtain ⟨q, hq⟩ := points x.ep2 (by simp)
    exact ⟨_, .ellipse x hp hq⟩
  | bezier x =>
    obtain ⟨p, hp⟩ := points x.p0 (by simp)
    obtain ⟨q, hq⟩ := points x.p1 (by simp)
    obtain ⟨u, hu⟩ := points x.p2 (by simp)
    obtain ⟨v, hv⟩ := points x.p3 (by simp)
    exact ⟨_, .bezier x hp hq hu hv⟩

theorem Lists.visited {x : Shape} (listed : s.Lists x hs) : x.parts.flatMap s.visitedPart = hs := by
  have own : ∀ k, s.visitedPart (.own k) = [k] := fun _ => rfl
  cases listed with
  | point p => rfl
  | segment g ha hb => simp [Shape.parts, own, visitedPart_child ha, visitedPart_child hb]
  | circle x hc => simp [Shape.parts, own, visitedPart_child hc]
  | arc x ha hb hc =>
    simp [Shape.parts, own, visitedPart_child ha, visitedPart_child hb, visitedPart_child hc]
  | ellipse x hp hq => simp [Shape.parts, own, visitedPart_child hp, visitedPart_child hq]
  | bezier x hp hq hu hv =>
    simp [Shape.parts, visitedPart_child hp, visitedPart_child hq, visitedPart_child hu,
      visitedPart_child hv]

/-- The parameters of an object are listed in the documented order. -/
theorem Ordered.exists_listed (o : s.Ordered) (he : s.entity? id = some e) :
    ∃ hs, s.objectParams id = .ok hs ∧ s.Lists e.shape hs := by
  obtain ⟨hs, params⟩ := objectParams_ok o he
  obtain ⟨ks, listed⟩ := exists_lists fun c hc =>
    (o.children e (List.mem_of_find?_eq_some he) c hc).2
  have same := visited_of_objectParams params
  rw [Sketch.visited, he] at same
  obtain rfl : ks = hs := listed.visited.symm.trans same
  exact ⟨ks, params, listed⟩

theorem objectParams_of_missing (missing : s.entity? id = none) :
    s.objectParams id = .error (.unknownObject id) := by
  rw [objectParams, entity, missing]
  rfl

/-- A visit that may stop half way. What was visited by then is kept. -/
abbrev Visit : Type := ExceptT (Option SketchError) (StateM (List Handle)) Unit

def visitPart (visit : ObjectId → Visit) : Part → Visit
  | .own h => modify (· ++ [h])
  | .child c => visit c

/-- The visit of an object, which for each of its points is a visit again, at most `depth` deep. It
stops at an object that is not there, or with no depth left. -/
def walk (s : Sketch K) : Nat → ObjectId → Visit
  | 0, _ => throw none
  | depth + 1, id =>
    match s.entity? id with
    | none => throw (some (.unknownObject id))
    | some e => e.shape.parts.forM (visitPart (s.walk depth))

/-- A visit stops at an object that is not there, with what was visited before. -/
theorem walk_missing (missing : s.entity? id = none) (depth : Nat) (seen : List Handle) :
    outcome (s.walk (depth + 1) id) seen = (.error (some (.unknownObject id)), seen) := by
  rw [walk, missing]
  rfl

/-- A visit goes into the points that an object is built on, one level less deep. -/
theorem walk_found (he : s.entity? id = some e) (depth : Nat) :
    s.walk (depth + 1) id = e.shape.parts.forM (visitPart (s.walk depth)) := by
  rw [walk, he]

theorem walk_point {p : Point} (hp : s.point id = .ok p) (depth : Nat) (seen : List Handle) :
    outcome (s.walk (depth + 1) id) seen = (.ok (), seen ++ [p.x, p.y]) := by
  obtain ⟨e, he, shape⟩ := point_eq_ok_iff.mp hp
  have twice : outcome ((Shape.point p).parts.forM (visitPart (s.walk depth))) seen =
      (.ok (), seen ++ [p.x] ++ [p.y]) := rfl
  rw [walk_found he, shape, twice, List.append_assoc]
  rfl

/-- A walk visits the parts one after another. -/
theorem walk_parts {parts : List Part} {lists : List (List Handle)} (depth : Nat)
    (listed : parts.mapM s.partParams = .ok lists) (seen : List Handle) :
    outcome (parts.forM (visitPart (s.walk (depth + 1)))) seen =
      (.ok (), seen ++ lists.flatten) := by
  induction parts generalizing lists seen with
  | nil =>
    cases listed
    exact Prod.ext rfl (List.append_nil seen).symm
  | cons part parts ih =>
    obtain ⟨hs, rest, hpart, hrest, rfl⟩ := mapM_cons_eq_ok.mp listed
    rw [List.flatten_cons, ← List.append_assoc]
    have first : outcome (visitPart (s.walk (depth + 1)) part) seen = (.ok (), seen ++ hs) := by
      cases part with
      | own h =>
        cases hpart
        rfl
      | child c =>
        obtain ⟨p, hp, hxy⟩ := bind_eq_ok.mp hpart
        cases hxy
        exact walk_point hp depth seen
    exact (outcome_bind_ok first _).trans (ih hrest (seen ++ hs))

/-- What is listed is what a walk visits, two levels deep. -/
theorem walk_of_objectParams (listed : s.objectParams id = .ok hs) (depth : Nat)
    (seen : List Handle) : outcome (s.walk (depth + 2) id) seen = (.ok (), seen ++ hs) := by
  obtain ⟨e, he, hparts⟩ := bind_eq_ok.mp listed
  obtain ⟨lists, hlists, flat⟩ := bind_eq_ok.mp hparts
  cases flat
  rw [walk_found (entity_eq_ok_iff.mp he)]
  exact walk_parts depth hlists seen

end Sketch

/-- Where the parameters and the points of a shape differ, so do its parts. -/
theorem Shape.nodup_parts {x : Shape} (own : x.own.Nodup) (children : x.children.Nodup) :
    x.parts.Nodup := by
  cases x <;> simp_all [Shape.parts]

/-- The points a shape is built on differ, but for the ends of a segment, which may be one point. -/
def Shape.Spread (x : Shape) : Prop := (∀ g, x ≠ .segment g) → x.children.Nodup

theorem Shape.Spread.children {x : Shape} (spread : x.Spread)
    (ends : ∀ g, x = .segment g → g.a ≠ g.b) : x.children.Nodup := by
  cases x with
  | segment g => simpa using ends g rfl
  | _ => exact spread (by simp)

def Part.home (id : ObjectId) : Part → ObjectId
  | .own _ => id
  | .child c => c

namespace Sketch

variable {s : Sketch K} {id c : ObjectId} {e : Entity} {h : Handle} {hs : List Handle}

/-- Each parameter that is visited belongs to one object. -/
theorem exists_home (he : s.entity? id = some e) {part : Part}
    (hp : part ∈ e.shape.parts) (hh : h ∈ s.visitedPart part) :
    ∃ f ∈ s.entities, f.id = part.home id ∧ h ∈ f.shape.own := by
  cases part with
  | own k =>
    obtain rfl := mem_visitedPart_own.mp hh
    exact ⟨e, List.mem_of_find?_eq_some he, id_of_entity? he, Shape.mem_own.mpr hp⟩
  | child c =>
    obtain ⟨p, hpoint, hxy⟩ := mem_visitedPart_child.mp hh
    obtain ⟨f, hf, number, -, hx, hy⟩ := own_of_point hpoint
    refine ⟨f, hf, number, ?_⟩
    rcases hxy with rfl | rfl
    · exact hx
    · exact hy

/-- No parameter comes twice where the points of a shape differ. -/
theorem WellFormed.nodup_visited (w : s.WellFormed) (he : s.entity? id = some e)
    (points : e.shape.children.Nodup) : (s.visited id).Nodup := by
  have mem := List.mem_of_find?_eq_some he
  have own := (List.nodup_flatMap.mp w.distinct).1 e mem
  rw [visited, he]
  refine List.nodup_flatMap.mpr ⟨fun part hp => ?_, ?_⟩
  · cases part with
    | own k => exact List.nodup_singleton k
    | child c =>
      obtain ⟨-, p, hpoint⟩ := w.children e mem c (Shape.mem_children.mpr hp)
      rw [visitedPart_child hpoint]
      simpa using (w.coordinates hpoint).1
  · refine (Shape.nodup_parts own points).imp_of_mem fun {x y} hx hy ne h hxh hyh => ne ?_
    -- a common parameter belongs to one object, which tells the two parts
    obtain ⟨f, hf, number, field⟩ := exists_home he hx hxh
    obtain ⟨g, hg, number', field'⟩ := exists_home he hy hyh
    obtain rfl := eq_of_mem_own w.distinct hf hg field field'
    have homes : x.home id = y.home id := number.symm.trans number'
    have less : ∀ c, .child c ∈ e.shape.parts → c ≠ id := by
      intro c hc same
      have less := (w.children e mem c (Shape.mem_children.mpr hc)).1
      rw [id_of_entity? he, same] at less
      omega
    cases x with
    | own k =>
      cases y with
      | own l => rw [← mem_visitedPart_own.mp hxh, ← mem_visitedPart_own.mp hyh]
      | child c => exact absurd homes.symm (less c hy)
    | child c =>
      cases y with
      | own l => exact absurd homes (less c hx)
      | child d => exact congrArg Part.child homes

/-- What a visit of an object comes to: every parameter of it in the documented order, all of them
live and none twice, but for a segment that starts and ends in one point. -/
structure Visits (s : Sketch K) (id : ObjectId) (x : Shape) (hs : List Handle) : Prop where
  listed : s.objectParams id = .ok hs
  walked : ∀ depth seen, outcome (s.walk (depth + 2) id) seen = (.ok (), seen ++ hs)
  ordered : s.Lists x hs
  length : hs.length = x.kind.span
  live : ∀ h ∈ hs, (s.param? h).isSome
  once : hs.Nodup ↔ ∀ g, x = .segment g → g.a ≠ g.b

theorem Carries.field (carried : s.Carries id h) : h ∈ s.fields := by
  obtain ⟨d, f, -, hf, own, -⟩ := carried.home
  exact List.mem_flatMap.mpr ⟨f, hf, own⟩

theorem field_of_listed {hs : List Handle} (listed : s.objectParams id = .ok hs) :
    ∀ h ∈ hs, h ∈ s.fields :=
  fun _ hh => ((mem_objectParams listed).mp hh).field

theorem WellFormed.live_of_carries (w : s.WellFormed) (carried : s.Carries id h) :
    (s.param? h).isSome := w.live h carried.field

/-- What an object lists is live. -/
theorem WellFormed.live_of_listed {hs : List Handle} (w : s.WellFormed)
    (listed : s.objectParams id = .ok hs) : ∀ h ∈ hs, (s.param? h).isSome :=
  fun _ hh => w.live_of_carries ((mem_objectParams listed).mp hh)

/-- On a well-formed sketch each object has a visit as documented. -/
theorem WellFormed.exists_visits (w : s.WellFormed) (he : s.entity? id = some e)
    (spread : e.shape.Spread) : ∃ hs, s.Visits id e.shape hs := by
  obtain ⟨hs, params, listed⟩ := w.exists_listed he
  refine ⟨hs, params, walk_of_objectParams params, listed, listed.length,
    w.live_of_listed params, ?_⟩
  constructor
  · rintro once g shape same
    rw [shape] at listed
    cases listed with
    | segment _ ha hb =>
      rw [same, hb] at ha
      cases ha
      simp at once
  · intro ends
    rw [← visited_of_objectParams params]
    exact w.nodup_visited he (spread.children ends)

end Sketch

end Drafting
