import Drafting.Proofs.Reflecting
import Drafting.Proofs.Slots

namespace Drafting

variable {K : Type}

namespace Sketch

variable {s s' t t' u : Sketch K} {f g : Handle → Option K}

/-- `t` is `s` but for the values that `f` gives. -/
structure Assigned (f : Handle → Option K) (s t : Sketch K) : Prop where
  entities : t.entities = s.entities
  lastObject : t.lastObject = s.lastObject
  constraintsMade : t.constraintsMade = s.constraintsMade
  free : t.params.free = s.params.free
  length : t.params.slots.length = s.params.slots.length
  given : ∀ h, t.param? h = (s.param? h).map fun p => { p with value := (f h).getD p.value }

namespace Assigned

theorem refl (s : Sketch K) : s.Assigned (fun _ => none) s := by
  refine ⟨rfl, rfl, rfl, rfl, rfl, fun h => ?_⟩
  simp

/-- Where both give a value, the later one stays. -/
theorem trans (first : s.Assigned f t) (second : t.Assigned g u) :
    s.Assigned (fun h => (g h).or (f h)) u := by
  refine ⟨second.entities.trans first.entities, second.lastObject.trans first.lastObject,
    second.constraintsMade.trans first.constraintsMade, second.free.trans first.free,
    second.length.trans first.length, fun h => ?_⟩
  rw [second.given, first.given, Option.map_map]
  cases g h <;> rfl

theorem setValue (h : Handle) (x : K) (s : Sketch K) :
    s.Assigned (fun k => if k = h then some x else none) (s.setValue h x) := by
  refine ⟨rfl, rfl, rfl, s.params.free_update _ _, s.params.length_slots_update _ _, fun k => ?_⟩
  by_cases e : k = h
  · subst e
    simp [param?, Sketch.setValue]
  · simp [param?, Sketch.setValue, s.params.get?_update_of_ne e, e]

/-- Nothing else is left open. -/
theorem unique (first : s.Assigned f t) (second : s.Assigned f t') : t' = t := by
  have params : t'.params = t.params := by
    refine Store.eq_of_get? (second.free.trans first.free.symm)
      (second.length.trans first.length.symm) fun h => ?_
    exact (second.given h).trans (first.given h).symm
  have entities := second.entities.trans first.entities.symm
  have lastObject := second.lastObject.trans first.lastObject.symm
  have constraintsMade := second.constraintsMade.trans first.constraintsMade.symm
  cases t
  cases t'
  simp_all

/-- Values that were given are there already. -/
theorem again (assigned : s.Assigned f t) : t.Assigned f t := by
  refine ⟨rfl, rfl, rfl, rfl, rfl, fun h => ?_⟩
  rw [assigned.given, Option.map_map]
  cases f h <;> rfl

theorem writes (assigned : s.Assigned f t) : s.Writes (fun h => f h ≠ none) t := by
  refine ⟨assigned.entities, assigned.lastObject, assigned.constraintsMade, ?_, ?_⟩
  · intro h none
    rw [assigned.given, not_not.mp none]
    simp
  · intro h
    rw [assigned.given, Option.map_map]
    rfl

theorem value [Scalar K] (assigned : s.Assigned f t) {h : Handle} (none : f h = none) :
    t.value h = s.value h := by
  have same := assigned.writes.others h (not_not.mpr none)
  simp only [Sketch.value, same]

/-- Sketches that differ in the values of both differ in those of the second alone once the first
are given. -/
theorem writes_rest (first : s.Assigned f t) (first' : s'.Assigned f t')
    (differ : s.Writes (fun h => (g h).or (f h) ≠ none) s') :
    t.Writes (fun h => g h ≠ none) t' := by
  refine ⟨?_, ?_, ?_, ?_, ?_⟩
  · rw [first'.entities, differ.entities, first.entities]
  · rw [first'.lastObject, differ.lastObject, first.lastObject]
  · rw [first'.constraintsMade, differ.constraintsMade, first.constraintsMade]
  · intro h unwritten
    have none := not_not.mp unwritten
    rw [first'.given, first.given]
    cases given : f h with
    | none => rw [differ.others h (by simp [none, given])]
    | some x =>
      -- both show the value that was given, under a name and bounds that did not change
      have kept := congrArg (Option.map fun q : String × List (Bound K) =>
        (⟨x, q.1, q.2⟩ : Param K)) (differ.kept h)
      rw [Option.map_map, Option.map_map] at kept
      exact kept
  · intro h
    rw [first'.given, first.given, Option.map_map, Option.map_map]
    exact differ.kept h

end Assigned

end Sketch

end Drafting
