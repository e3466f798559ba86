import Drafting.Proofs.Scoping
import Drafting.Proofs.Writing
import Mathlib.Data.List.Pairwise

namespace Drafting

/-- The points whose coordinates an object carries: itself if it is a point, or those it is built
on. -/
def Entity.points (e : Entity) : List ObjectId :=
  match e.shape with
  | .point _ => [e.id]
  | shape => shape.children

theorem Entity.points_of_child (e : Entity) {c : ObjectId} (hc : c ∈ e.shape.children) :
    c ∈ e.points := by
  obtain ⟨number, shape, owner⟩ := e
  cases shape with
  | point p => simp at hc
  | _ => exact hc

namespace Sketch

variable {K : Type} {s : Sketch K} {a b id : ObjectId} {h : Handle}

def pointsOf (s : Sketch K) (id : ObjectId) : List ObjectId :=
  match s.entity? id with
  | some e => e.points
  | none => []

theorem mem_pointsOf {e : Entity} {c : ObjectId} (he : s.entity? id = some e) :
    c ∈ s.pointsOf id ↔ c ∈ e.points := by
  rw [pointsOf, he]

/-- No parameter belongs to two objects. -/
theorem eq_of_mem_own (distinct : s.fields.Nodup) {d e : Entity} (hd : d ∈ s.entities)
    (he : e ∈ s.entities) (hdh : h ∈ d.shape.own) (heh : h ∈ e.shape.own) : d = e := by
  have apart := (List.nodup_flatMap.mp distinct).2
  have symm : Std.Symm (Function.onFun List.Disjoint fun e : Entity => e.shape.own) :=
    ⟨fun _ _ h _ hd he => h he hd⟩
  by_contra ne
  exact apart.forall hd he ne hdh heh

/-- A carried parameter belongs to the object itself or to a point it is built on. -/
theorem Carries.home (carried : s.Carries id h) : ∃ e f, s.entity? id = some e ∧
    f ∈ s.entities ∧ h ∈ f.shape.own ∧ (f = e ∨ ∃ p, f.shape = .point p ∧ f.id ∈ e.points) := by
  obtain ⟨e, he, own | ⟨c, hc, p, hp, hxy⟩⟩ := carried
  · exact ⟨e, e, he, List.mem_of_find?_eq_some he, own, .inl rfl⟩
  · obtain ⟨f, hf, shape⟩ := point_eq_ok_iff.mp hp
    have number := id_of_entity? hf
    refine ⟨e, f, he, List.mem_of_find?_eq_some hf, ?_, .inr ⟨p, shape, ?_⟩⟩
    · simpa [shape] using hxy
    · rw [number]
      exact e.points_of_child hc

/-- Two objects can have a parameter in common through a common point only. -/
theorem shared_of_carries (o : s.Ordered) (distinct : s.fields.Nodup) (ha : s.Carries a h)
    (hb : s.Carries b h) (ne : a ≠ b) :
    ∃ c ∈ s.pointsOf a, c ∈ s.pointsOf b ∧ ∃ p, s.point c = .ok p ∧ (h = p.x ∨ h = p.y) := by
  obtain ⟨d, f, hd, hf, own, home⟩ := ha.home
  obtain ⟨e, g, he, hg, own', home'⟩ := hb.home
  obtain rfl := eq_of_mem_own distinct hf hg own own'
  have coordinate : ∀ p, f.shape = .point p → ∃ p, s.point f.id = .ok p ∧ (h = p.x ∨ h = p.y) := by
    intro p shape
    refine ⟨p, point_eq_ok_iff.mpr ⟨f, (entity?_eq_some_iff o).mpr ⟨hf, rfl⟩, shape⟩, ?_⟩
    simpa [shape] using own
  refine ⟨f.id, ?_⟩
  rw [mem_pointsOf hd, mem_pointsOf he]
  rcases home with rfl | ⟨p, shape, hc⟩
  · rcases home' with rfl | ⟨p, shape, hc⟩
    · exact absurd ((id_of_entity? hd).symm.trans (id_of_entity? he)) ne
    · exact ⟨by simp [Entity.points, shape], hc, coordinate p shape⟩
  · rcases home' with rfl | ⟨-, -, hc'⟩
    · exact ⟨hc, by simp [Entity.points, shape], coordinate p shape⟩
    · exact ⟨hc, hc', coordinate p shape⟩

/-- An object carries the coordinates of its points. -/
theorem carries_of_mem_points (o : s.Ordered) {e : Entity} {c : ObjectId}
    (he : s.entity? id = some e) (hc : c ∈ e.points) :
    ∃ p, s.point c = .ok p ∧ s.Carries id p.x ∧ s.Carries id p.y := by
  cases shape : e.shape with
  | point p =>
    obtain rfl : c = e.id := by simpa [Entity.points, shape] using hc
    have number := id_of_entity? he
    have hp : s.point e.id = .ok p := point_eq_ok_iff.mpr ⟨e, number ▸ he, shape⟩
    exact ⟨p, hp, number ▸ carries_of_point hp⟩
  | _ =>
    have child : c ∈ e.shape.children := by simpa only [Entity.points, shape] using hc
    obtain ⟨-, p, hp⟩ := o.children e (List.mem_of_find?_eq_some he) c child
    exact ⟨p, hp, carries_of_child he child hp⟩

theorem objectParams_ok (o : s.Ordered) {e : Entity} (he : s.entity? id = some e) :
    ∃ hs, s.objectParams id = .ok hs := by
  have known : s.IsA (.only e.shape.kind) id := ⟨e, he, beq_self_eq_true _⟩
  obtain ⟨hs, listed, -⟩ := o.grounded.objectParams known
  exact ⟨hs, listed⟩

end Sketch

end Drafting
