import Drafting.Proofs.Issuing
import Drafting.Proofs.Visiting

namespace Drafting

variable {K : Type}

namespace Sketch

variable {s t u : Sketch K} {h : Handle} {lost : List Handle}

/-- Every object is one of before, or has a number that was not given before. -/
structure Follows (s t : Sketch K) : Prop where
  lastObject : s.lastObject ≤ t.lastObject
  objects : ∀ d ∈ t.entities,
    (∃ e ∈ s.entities, e.id = d.id ∧ e.shape = d.shape) ∨ s.lastObject < d.id.val

theorem Follows.refl (s : Sketch K) : s.Follows s :=
  ⟨Nat.le_refl _, fun d hd => .inl ⟨d, hd, rfl, rfl⟩⟩

theorem Follows.trans (f : s.Follows t) (f' : t.Follows u) : s.Follows u := by
  refine ⟨Nat.le_trans f.lastObject f'.lastObject, fun d hd => ?_⟩
  rcases f'.objects d hd with ⟨e, he, number, shape⟩ | new
  · rw [← number, ← shape]
    exact f.objects e he
  · exact .inr (Nat.lt_of_le_of_lt f.lastObject new)

theorem Drawn.follows (d : Drawn s t) : s.Follows t := by
  induction d with
  | refl => exact .refl s
  | tail _ step ih =>
    obtain ⟨e, step⟩ := step
    refine ih.trans ⟨by rw [step.lastObject]; omega, fun d hd => ?_⟩
    rw [step.entities] at hd
    rcases List.mem_append.mp hd with old | new
    · exact .inl ⟨d, old, rfl, rfl⟩
    · right
      rw [List.mem_singleton.mp new, step.val]
      omega

theorem Drawn.constraintsMade (d : Drawn s t) : t.constraintsMade = s.constraintsMade := by
  induction d with
  | refl => rfl
  | tail _ step ih =>
    obtain ⟨e, step⟩ := step
    exact step.constraintsMade.trans ih

/-- What is drawn adds the parameters of the new objects and no others. -/
theorem Drawn.gains (d : Drawn s t) :
    ∃ hs, t.fields = s.fields ++ hs ∧ s.params.Gains hs t.params := by
  induction d with
  | refl => exact ⟨[], by simp, .refl _⟩
  | tail _ step ih =>
    obtain ⟨e, step⟩ := step
    obtain ⟨hs, fields, gains⟩ := ih
    refine ⟨hs ++ e.shape.own, ?_, gains.append step.params⟩
    rw [step.fields, fields, List.append_assoc]

def Spread (s : Sketch K) : Prop := ∀ e ∈ s.entities, e.shape.Spread

theorem Spread.addShape (spread : s.Spread) (same : t.entities = s.entities) {shape : Shape}
    (new : shape.Spread) : ((addShape shape).run t).2.Spread := by
  intro e he
  rcases List.mem_append.mp he with old | added
  · exact spread e (same ▸ old)
  · rw [List.mem_singleton.mp added]
    exact new

theorem Spread.addPoint (spread : s.Spread) (v : Vec K) : ((addPoint v).run s).2.Spread :=
  spread.addShape rfl fun _ => .nil

theorem Spread.addCircle (spread : s.Spread) (center : Vec K) (r : K) :
    ((addCircle center r).run s).2.Spread :=
  (spread.addPoint center).addShape rfl fun _ => List.nodup_singleton _

/-- Points that are drawn one after the other differ, as each has the next number. -/
theorem Spread.addEllipse (spread : s.Spread) (ep1 ep2 : Vec K) (r : K) :
    ((addEllipse ep1 ep2 r).run s).2.Spread := by
  refine ((spread.addPoint ep1).addPoint ep2).addShape rfl fun _ => ?_
  change [(⟨s.lastObject + 1⟩ : ObjectId), ⟨s.lastObject + 2⟩].Nodup
  simp

theorem Spread.addBezier (spread : s.Spread) (p0 p1 p2 p3 : Vec K) :
    ((addBezier p0 p1 p2 p3).run s).2.Spread := by
  refine ((((spread.addPoint p0).addPoint p1).addPoint p2).addPoint p3).addShape rfl fun _ => ?_
  change [(⟨s.lastObject + 1⟩ : ObjectId), ⟨s.lastObject + 4⟩, ⟨s.lastObject + 2⟩,
    ⟨s.lastObject + 3⟩].Nodup
  simp

theorem Spread.addArc [Scalar K] (spread : s.Spread) (center : Vec K) (r ang1 ang2 : K) :
    ((addArc center r ang1 ang2).run s).2.Spread := by
  refine (((spread.addPoint center).addPoint (onCircle center r ang1)).addPoint
    (onCircle center r ang2)).addShape rfl fun _ => ?_
  change [(⟨s.lastObject + 2⟩ : ObjectId), ⟨s.lastObject + 3⟩, ⟨s.lastObject + 1⟩].Nodup
  simp

/-- Nothing is asked of the ends of a segment: it may join a point to itself. -/
theorem Spread.addSegmentOver [Scalar K] (spread : s.Spread) (a b : ObjectId) (d : Vec K) :
    ((addSegmentOver a b d).run s).2.Spread :=
  spread.addShape rfl fun other => absurd rfl (other _)

theorem Spread.addSegment [Scalar K] (spread : s.Spread) (start finish : Vec K) :
    ((addSegment start finish).run s).2.Spread :=
  ((spread.addPoint start).addPoint finish).addShape rfl fun other => absurd rfl (other _)

theorem Spread.sameShapes (spread : s.Spread) (same : s.SameShapes t) : t.Spread := by
  intro d hd
  obtain ⟨e, he, -, shape⟩ := same.mem hd
  exact shape ▸ spread e he

/-- Every operation draws objects, leaves them with their parameters, or clears the sketch. -/
inductive Advances (s t : Sketch K) : Prop where
  | draw (drawn : Drawn s t) (spread : s.Spread → t.Spread)
  | keep (shapes : s.SameShapes t)
    (live : ∀ h ∈ s.fields, (s.param? h).isSome → (t.param? h).isSome)
  | clear (gone : t.entities = []) (lastObject : t.lastObject = s.lastObject)

/-- The same for operations that take parameters away, of objects as of others. -/
inductive Turns (lost : List Handle) (s t : Sketch K) : Prop where
  | draw (drawn : Drawn s t) (spread : s.Spread → t.Spread)
  | keep (shapes : s.SameShapes t)
    (live : ∀ h ∈ s.fields, h ∉ lost → (s.param? h).isSome → (t.param? h).isSome)
  | clear (gone : t.entities = []) (lastObject : t.lastObject = s.lastObject)

theorem Advances.turns (a : s.Advances t) : s.Turns lost t := by
  cases a with
  | draw drawn spread => exact .draw drawn spread
  | keep shapes live => exact .keep shapes fun h field _ => live h field
  | clear gone lastObject => exact .clear gone lastObject

/-- Where no object loses a parameter. -/
theorem Turns.advances (a : s.Turns lost t) (other : ∀ h ∈ lost, h ∉ s.fields) :
    s.Advances t := by
  cases a with
  | draw drawn spread => exact .draw drawn spread
  | keep shapes live => exact .keep shapes fun h field => live h field fun hh => other h hh field
  | clear gone lastObject => exact .clear gone lastObject

theorem Turns.ordered (a : s.Turns lost t) (o : s.Ordered) : t.Ordered := by
  cases a with
  | draw drawn _ => exact drawn.ordered o
  | keep shapes _ => exact o.sameShapes shapes
  | clear gone _ => exact ⟨by simp [gone], by simp [gone], by simp [gone]⟩

/-- A number is not given again, not even after the sketch was cleared. -/
theorem Turns.follows (a : s.Turns lost t) : s.Follows t := by
  cases a with
  | draw drawn _ => exact drawn.follows
  | keep shapes _ =>
    refine ⟨Nat.le_of_eq shapes.lastObject.symm, fun d hd => .inl ?_⟩
    exact shapes.mem hd
  | clear gone lastObject => exact ⟨Nat.le_of_eq lastObject.symm, by simp [gone]⟩

theorem Advances.follows (a : s.Advances t) : s.Follows t := (a.turns : s.Turns [] t).follows

theorem Advances.spread (a : s.Advances t) (spread : s.Spread) : t.Spread := by
  cases a with
  | draw _ spreads => exact spreads spread
  | keep shapes _ => exact spread.sameShapes shapes
  | clear gone _ =>
    intro e he
    rw [gone] at he
    cases he

/-- A cleared sketch is well-formed whatever parameters are left in it. -/
theorem wellFormed_of_empty (gone : s.entities = []) : s.WellFormed where
  rising := by simp [gone]
  numbered := by simp [gone]
  children := by simp [gone]
  distinct := by simp [fields, gone]
  live := by simp [fields, gone]

/-- The step of the invariant, one case for each thing that an operation can do. -/
theorem Advances.wellFormed (a : s.Advances t) (w : s.WellFormed) : t.WellFormed := by
  cases a with
  | draw drawn _ =>
    obtain ⟨hs, fields, gains⟩ := drawn.gains
    refine ⟨drawn.ordered w.toOrdered, ?_, fun h hh => ?_⟩
    · rw [fields]
      exact List.nodup_append.mpr ⟨w.distinct, gains.distinct,
        fun h hh k hk same => gains.apart (w.live h hh) (same ▸ hk)⟩
    · rw [fields] at hh
      rcases List.mem_append.mp hh with old | new
      · exact gains.keeps (w.live h old)
      · exact gains.live h new
  | keep shapes live =>
    refine ⟨w.toOrdered.sameShapes shapes, ?_, fun h hh => ?_⟩
    · rw [shapes.fields]
      exact w.distinct
    · rw [shapes.fields] at hh
      exact live h hh (w.live h hh)
  | clear gone _ => exact wellFormed_of_empty gone

/-- The handle was given, but not to a parameter of an object. -/
structure Apart (s : Sketch K) (h : Handle) : Prop where
  given : s.params.Given h
  other : h ∉ s.fields

/-- It never comes to be one of an object. -/
theorem Turns.apart (a : s.Turns lost t) (aging : Aging s t) (apart : s.Apart h) : t.Apart h := by
  refine ⟨aging.given h apart.given, fun field => ?_⟩
  cases a with
  | draw drawn _ =>
    obtain ⟨hs, fields, gains⟩ := drawn.gains
    rw [fields] at field
    rcases List.mem_append.mp field with old | new
    · exact apart.other old
    · exact aging.fresh gains h new apart.given
  | keep shapes _ =>
    rw [shapes.fields] at field
    exact apart.other field
  | clear gone _ => simp [fields, gone] at field

/-- Parameters of objects were given, whether they are still there or not. -/
theorem Turns.given (a : s.Turns lost t) (aging : Aging s t)
    (given : ∀ h ∈ s.fields, s.params.Given h) : ∀ h ∈ t.fields, t.params.Given h := by
  intro h field
  cases a with
  | draw drawn _ =>
    obtain ⟨hs, fields, gains⟩ := drawn.gains
    rw [fields] at field
    rcases List.mem_append.mp field with old | new
    · exact aging.given h (given h old)
    · exact Store.given_of_live (gains.live h new)
  | keep shapes _ =>
    rw [shapes.fields] at field
    exact aging.given h (given h field)
  | clear gone _ => simp [fields, gone] at field

theorem Unchanged.advances (same : s.Unchanged t) : s.Advances t := by
  refine .keep same.sameShapes fun h _ live => ?_
  rwa [same.params h]

theorem Writes.advances {W : Handle → Prop} (w : s.Writes W t) : s.Advances t := by
  refine .keep w.sameShapes fun h _ live => ?_
  rwa [w.live h]

end Sketch

theorem Constraint.Installs.advances {c : Constraint K} {s t : Sketch K} (made : c.Installs s t) :
    s.Advances t :=
  .keep made.sameShapes fun _ _ live => made.params.keeps live

/-- What a constraint brings along belongs to no object. -/
theorem Constraint.Installs.apart {c : Constraint K} {s t : Sketch K} (made : c.Installs s t)
    (w : s.WellFormed) : ∀ h ∈ c.auxiliary, t.Apart h := by
  intro h hh
  refine ⟨Store.given_of_live (made.params.live h hh), fun field => ?_⟩
  rw [made.sameShapes.fields] at field
  exact made.params.apart (w.live h field) hh

end Drafting
