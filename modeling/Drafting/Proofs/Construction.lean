import Drafting.Double
import Drafting.Record
import Drafting.Proofs.Drawing
import Drafting.Proofs.Marks

namespace Drafting

variable {K : Type}

namespace Sketch

variable {s t u : Sketch K} {hs ks : List Handle}

/-- The same objects with the same owners and the same parameters. Slots and numbers of constraints
may have been used on the way. -/
structure Unchanged (s t : Sketch K) : Prop where
  entities : t.entities = s.entities
  lastObject : t.lastObject = s.lastObject
  params : ∀ h, t.param? h = s.param? h
  constraintsMade : s.constraintsMade ≤ t.constraintsMade

theorem Unchanged.refl (s : Sketch K) : s.Unchanged s := ⟨rfl, rfl, fun _ => rfl, Nat.le_refl _⟩

theorem Unchanged.trans (h : s.Unchanged t) (h' : t.Unchanged u) : s.Unchanged u :=
  ⟨h'.entities.trans h.entities, h'.lastObject.trans h.lastObject,
    fun k => (h'.params k).trans (h.params k), Nat.le_trans h.constraintsMade h'.constraintsMade⟩

theorem Unchanged.keyed (h : s.Unchanged t) (keyed : s.Keyed) : t.Keyed := by
  intro e he
  rw [entity?_congr h.entities]
  exact keyed e (h.entities ▸ he)

theorem Unchanged.sameShapes (h : s.Unchanged t) : s.SameShapes t :=
  ⟨by rw [h.entities], h.lastObject⟩

/-- New parameters can be taken away again. Their slots were used, which does not show. -/
theorem Grows.undone (h : Grows hs s t) : s.Unchanged (t.removeParams hs) :=
  ⟨h.entities, h.lastObject, h.params.eraseAll, Nat.le_of_eq h.constraintsMade.symm⟩

end Sketch

namespace Constraint

open Sketch (Unchanged Grows)

variable {s t u : Sketch K} {c : Constraint K}

/-- What making a constraint did to a sketch: its own parameters are new, the objects it manages
were free and are its own now, and all else is as it was. -/
structure Installs (c : Constraint K) (s t : Sketch K) : Prop where
  entities : t.entities =
    s.entities.map fun e => if e.id ∈ c.managed then { e with owner := some c.id } else e
  lastObject : t.lastObject = s.lastObject
  unowned : ∀ id ∈ c.managed, s.owner id = .ok none
  params : s.params.Gains c.auxiliary t.params
  numbered : s.constraintsMade ≤ c.id.val ∧ c.id.val < t.constraintsMade

theorem Installs.sameShapes (h : c.Installs s t) : s.SameShapes t := by
  refine .of_map h.entities (fun e => ?_) h.lastObject
  split <;> rfl

theorem entities_release (c : Constraint K) (s : Sketch K) :
    (c.release s).entities = s.entities.map fun e =>
      if e.id ∈ c.managed ∧ e.owner = some c.id then { e with owner := none } else e :=
  s.entities_release c.managed c.id

theorem param?_release (c : Constraint K) (s : Sketch K) (h : Handle) :
    (c.release s).param? h = if h ∈ c.auxiliary then none else s.param? h :=
  Store.get?_eraseAll s.params c.auxiliary h

theorem sameShapes_release (c : Constraint K) (s : Sketch K) : s.SameShapes (c.release s) :=
  ⟨(s.sameShapes_release c.managed c.id).drawn, rfl⟩

/-- Releasing a constraint takes everything back that making it brought. -/
theorem Installs.release (keyed : s.Keyed) (h : c.Installs s t) : s.Unchanged (c.release t) where
  entities := by
    rw [c.entities_release, h.entities, List.map_map]
    refine (List.map_congr_left fun e he => ?_).trans (List.map_id _)
    by_cases hm : e.id ∈ c.managed
    · have free : e.owner = none := by
        have same := (Sketch.owner_of_mem keyed he).symm.trans (h.unowned e.id hm)
        exact Except.ok.inj same
      simp [hm, ← free]
    · simp [hm]
  lastObject := h.lastObject
  params := h.params.eraseAll
  constraintsMade := by
    have same : (c.release t).constraintsMade = t.constraintsMade := rfl
    obtain ⟨old, new⟩ := h.numbered
    omega

/-- What is left of a sketch by an operation that makes a constraint or fails. -/
def Leaves (s : Sketch K) : Except ConstraintError (Constraint K) × Sketch K → Prop :=
  Ends (fun c t => c.Installs s t) (fun _ t => s.Unchanged t)

section Leaves

variable {r : Except ConstraintError (Constraint K) × Sketch K}

theorem Leaves.installs {c : Constraint K} (h : Leaves s r) (made : r = (.ok c, t)) :
    c.Installs s t := by
  rw [made] at h
  exact h

theorem Leaves.unchanged {e : ConstraintError} (h : Leaves s r) (failed : r = (.error e, t)) :
    s.Unchanged t := by
  rw [failed] at h
  exact h

/-- Either way, all that shows is what the constraint brought, if there is one. -/
theorem Leaves.shows (h : Leaves s r) :
    s.Unchanged r.2 ∨ ∃ c : Constraint K, c.Installs s r.2 := by
  obtain ⟨answer, t⟩ := r
  cases answer with
  | ok c => exact .inr ⟨c, h⟩
  | error e => exact .inl h

end Leaves

def stake (c : Constraint K) : Stake := ⟨c.id, c.managed, c.auxiliary⟩

theorem grows_allocate (ps : List (ScopeParam K)) (s : Sketch K) :
    Grows ((allocate ps).run s).1.auxiliary s ((allocate ps).run s).2 := by
  induction ps generalizing s with
  | nil => exact .refl s
  | cons p ps ih =>
    cases p with
    | held h => exact ih s
    | fresh p => exact (Sketch.grows_addParam p s).append (ih _)

/-- Taking targets marks them all; where it fails the scope is gone. -/
theorem ends_takeTargets (id : ConstraintId) (managed : List ObjectId) (scope : Scope)
    (grown : Grows scope.auxiliary s u) :
    Ends (fun _ t => (∀ x ∈ managed, s.owner x = .ok none) ∧
        t = u.mark managed (fun _ => true) (some id))
      (fun _ t => s.Unchanged t) (outcome (takeTargets id managed scope) u) := by
  unfold takeTargets
  rw [outcome_bind_ok (outcome_get u)]
  cases h : u.claim managed id with
  | ok t =>
    obtain ⟨free, ht⟩ := Sketch.claim_eq_ok_iff.mp h
    refine ⟨fun x hx => ?_, ht⟩
    rw [← Sketch.owner_congr grown.entities]
    exact free x hx
  | error e => exact grown.undone

variable [Scalar K]

/-- A scope that is complete added its parameters; one that is not added none. -/
theorem ends_takeScope (kind : Kind) (objects : List ObjectId) (o : Options K) (s : Sketch K) :
    Ends (fun scope t => Grows scope.auxiliary s t) (fun _ t => s.Unchanged t)
      (outcome (takeScope kind objects o) s) := by
  have grown := grows_allocate ((kind.gather s o objects).run.run []).2 s
  have scope : (gatherScope kind objects o).run s =
      ((((kind.gather s o objects).run.run []).1,
        ((allocate ((kind.gather s o objects).run.run []).2).run s).1),
        ((allocate ((kind.gather s o objects).run.run []).2).run s).2) := rfl
  unfold takeScope
  rw [outcome_bind_ok (outcome_liftM _ s), scope]
  cases ((kind.gather s o objects).run.run []).1 with
  | ok _ => exact grown
  | error e => exact grown.undone

/-- Where the scope or the targets are refused, what was added before is taken away. -/
theorem leaves_make (kind : Kind) (objects : List ObjectId) (constants : Table (Constant.Raw K))
    (o : Options K) (s : Sketch K) :
    Leaves s (outcome (make kind objects constants o) s) := by
  -- the number is used up before anything can fail
  let numbered : Sketch K := { s with constraintsMade := s.constraintsMade + 1 }
  have counted : s.Unchanged numbered := ⟨rfl, rfl, fun _ => rfl, Nat.le_succ _⟩
  have installs : ∀ (c : Constraint K) (u t : Sketch K), Grows c.auxiliary numbered u →
      c.id = ⟨s.constraintsMade⟩ → (∀ x ∈ c.managed, s.owner x = .ok none) →
      t = u.mark c.managed (fun _ => true) (some c.id) → c.Installs s t := by
    intro c u t grown hid free marked
    subst marked
    refine ⟨?_, grown.lastObject, free, grown.params, ?_⟩
    · rw [Sketch.entities_claimed, grown.entities]
    · have made : (u.mark c.managed (fun _ => true) (some c.id)).constraintsMade =
        s.constraintsMade + 1 := grown.constraintsMade
      have number : c.id.val = s.constraintsMade := by rw [hid]
      omega
  unfold make
  by_cases arity : kind.arity.accepts objects.length
  · simp only [arity, Bool.not_true, Bool.false_eq_true, if_false]
    rw [outcome_bind_ok (outcome_liftM _ s)]
    refine (ends_takeScope kind objects o numbered).bind (fun scope u grown => ?_)
      (fun e u same => counted.trans same)
    cases kind.split? objects with
    | none =>
      refine installs _ u u grown rfl (by simp) ?_
      simp [Sketch.mark]
    | some split =>
      obtain ⟨reference, managed⟩ := split
      refine (ends_takeTargets ⟨s.constraintsMade⟩ managed scope grown).bind
        (fun _ t taken => ?_) (fun e t same => counted.trans same)
      exact installs _ u t grown rfl taken.1 taken.2
  · simp only [arity, Bool.not_false, if_true]
    exact Unchanged.refl s

omit [Scalar K] in
theorem Installs.constants (h : c.Installs s t) (k : Table (Constant.Raw K)) :
    { c with constants := k }.Installs s t :=
  ⟨h.entities, h.lastObject, h.unowned, h.params, h.numbered⟩

omit [Scalar K] in
theorem Installs.internal (h : c.Installs s t) : { c with isInternal := true }.Installs s t :=
  ⟨h.entities, h.lastObject, h.unowned, h.params, h.numbered⟩

section Create

variable [Written K]

omit [Scalar K] in
theorem foldl_setConstant (vs : List (String × Constant.Value K)) (c : Constraint K) :
    vs.foldl (fun c v => c.setConstant v.1 (unrounded v.2)) c =
      { c with constants := vs.foldl (fun t v => t.insert v.1 (unrounded v.2)) c.constants } := by
  induction vs generalizing c with
  | nil => rfl
  | cons v vs ih => exact ih (c.setConstant v.1 (unrounded v.2))

/-- Measuring changes the constants and nothing else. -/
theorem initConstants_eq_ok {d : Constraint K} (h : c.initConstants s = .ok d) :
    ∃ k, d = { c with constants := k } := by
  unfold initConstants at h
  split at h
  · cases h
    exact ⟨_, rfl⟩
  · obtain ⟨values, _, hd⟩ := bind_eq_ok.mp h
    cases hd
    exact ⟨_, rfl⟩

theorem resync_eq_ok {d : Constraint K} (h : c.resync s = .ok d) :
    ∃ k, d = { c with constants := k } := by
  unfold resync at h
  split at h
  · obtain ⟨values, _, hd⟩ := bind_eq_ok.mp h
    cases hd
    exact ⟨_, foldl_setConstant values c⟩
  · cases h
    exact ⟨_, rfl⟩

/-- A constraint that was made is released where its constants cannot be measured. -/
theorem leaves_create (kind : Kind) (objects : List ObjectId) (o : s.Ordered) :
    Leaves s (outcome (create kind objects) s) := by
  unfold create
  refine (leaves_make kind objects .empty .standard s).bind (fun c t made => ?_)
    (fun e t same => same)
  rw [outcome_bind_ok (outcome_get t)]
  cases h : c.initConstants t with
  | ok d =>
    obtain ⟨k, rfl⟩ := initConstants_eq_ok h
    exact made.constants k
  | error e => exact made.release o.keyed

end Create

def LeavesAny (s : Sketch K) : Except ConstraintError (Option (Constraint K)) × Sketch K → Prop :=
  Ends
    (fun made t => match made with
      | some c => c.Installs s t
      | none => s.Unchanged t)
    (fun _ t => s.Unchanged t)

theorem leavesAny_consistencyFor (object : ObjectId) (s : Sketch K) :
    LeavesAny s (outcome (consistencyFor object) s) := by
  have made : ∀ k : Kind, LeavesAny s (outcome (do
      let c ← make k [object] .empty .standard
      pure (some { c with isInternal := true })) s) := fun k =>
    (leaves_make k [object] .empty .standard s).bind (fun c t made => made.internal)
      (fun e t same => same)
  unfold consistencyFor
  refine outcome_bind_of (P := LeavesAny s) (fun kind t h => ?_) (fun e t h => ?_)
  · rw [Sketch.outcome_ask] at h
    obtain ⟨-, rfl⟩ := Prod.mk.inj h
    cases kind with
    | segment => exact made .segmentConsistency
    | arc => exact made .arcConsistency
    | _ => exact Unchanged.refl s
  · rw [Sketch.outcome_ask] at h
    obtain ⟨-, rfl⟩ := Prod.mk.inj h
    exact Unchanged.refl s

theorem leaves_readVia (index : ObjectId → Option ObjectId) (r : Record K) (s : Sketch K) :
    Leaves s (outcome (readVia index r) s) := by
  unfold readVia
  -- the lookups of the index come first, and they only look
  refine outcome_bind_of (P := Leaves s) (fun objects t h => ?_) (fun e t h => ?_)
  · have looked := congrArg Prod.snd h
    rw [outcome_mapM_of_same fun id u => by cases index id <;> rfl] at looked
    obtain rfl : s = t := looked
    cases Kind.ofId? r.typeId with
    | none => exact Unchanged.refl s
    | some kind => exact leaves_make kind objects r.constants .standard s
  · have looked := congrArg Prod.snd h
    rw [outcome_mapM_of_same fun id u => by cases index id <;> rfl] at looked
    obtain rfl : s = t := looked
    exact Unchanged.refl s

theorem leaves_read (r : Record K) (s : Sketch K) : Leaves s (outcome (read r) s) := by
  unfold read
  rw [outcome_bind_ok (outcome_get s)]
  exact leaves_readVia _ r s

/-- The whole of what making a constraint does: nothing where it fails; where it succeeds, what the
constraint brings, which is gone once it is released. -/
def Transacts (s : Sketch K) : Except ConstraintError (Constraint K) × Sketch K → Prop :=
  Ends (fun c t => c.Installs s t ∧ s.Unchanged (c.release t)) (fun _ t => s.Unchanged t)

omit [Scalar K] in
theorem Leaves.transacts {r : Except ConstraintError (Constraint K) × Sketch K} (o : s.Ordered)
    (h : Leaves s r) : Transacts s r :=
  h.imp (fun _ _ made => ⟨made, made.release o.keyed⟩) (fun _ _ same => same)

/-- Every way to make a constraint is a transaction, whatever it is made of. -/
theorem construction_transacts [Written K] (o : s.Ordered) :
    (∀ kind objects constants options,
      Transacts s (outcome (make kind objects constants options) s)) ∧
    (∀ kind objects, Transacts s (outcome (create kind objects) s)) ∧
    (∀ object, Ends
      (fun made t => match made with
        | some c => c.Installs s t ∧ s.Unchanged (c.release t)
        | none => s.Unchanged t)
      (fun _ t => s.Unchanged t) (outcome (consistencyFor object) s)) ∧
    (∀ r, Transacts s (outcome (read r) s)) ∧
    (∀ index r, Transacts s (outcome (readVia index r) s)) := by
  refine ⟨?_, ?_, ?_, ?_, ?_⟩
  · intro kind objects constants options
    exact (leaves_make kind objects constants options s).transacts o
  · intro kind objects
    exact (leaves_create kind objects o).transacts o
  · intro object
    refine (leavesAny_consistencyFor object s).imp (fun made t h => ?_) (fun _ _ same => same)
    cases made with
    | some c => exact ⟨h, Installs.release o.keyed h⟩
    | none => exact h
  · intro r
    exact (leaves_read r s).transacts o
  · intro index r
    exact (leaves_readVia index r s).transacts o

/-- The ends of a segment mirrored onto each other across it. -/
theorem construction_transacts_mirror :
    let s : Sketch Float := ((Sketch.addSegment ⟨0, 0⟩ ⟨1, 1⟩).run .empty).2
    let made := outcome (make .mirror [⟨3⟩, ⟨1⟩, ⟨2⟩] .empty .standard) s
    s.Ordered ∧ Transacts s made ∧ made.1.toOption.isSome = true := by
  have o := (Sketch.drawn_addSegment (K := Float) ⟨0, 0⟩ ⟨1, 1⟩ Sketch.Ordered.empty).ordered
    Sketch.Ordered.empty
  exact ⟨o, (construction_transacts o).1 .mirror _ _ _, by decide +kernel⟩

end Constraint

end Drafting
