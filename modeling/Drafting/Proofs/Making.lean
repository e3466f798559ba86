import Drafting.Proofs.Construction
import Drafting.Proofs.Signature

namespace Drafting

variable {K : Type}

def Kind.targets (k : Kind) (objects : List ObjectId) : List ObjectId :=
  match k.split? objects with
  | some (_, managed) => managed
  | none => []

def Kind.sources (k : Kind) (objects : List ObjectId) : List ObjectId :=
  match k.split? objects with
  | some (reference, _) => reference
  | none => []

/-- The objects are as many as the kind takes, and those of a constraint with residuals fit its
signature. -/
structure Kind.Suits (k : Kind) (s : Sketch K) (objects : List ObjectId) : Prop where
  accepted : k.arity.accepts objects.length
  fits : k.isModifier = false → s.Fits k.signature objects

namespace Sketch

variable {s : Sketch K} {k : Kind} {objects : List ObjectId}

def numbered (s : Sketch K) : Sketch K := { s with constraintsMade := s.constraintsMade + 1 }

theorem Ordered.counted (o : s.Ordered) : s.numbered.Ordered := ⟨o.rising, o.numbered, o.children⟩

theorem Fits.accepted (hk : k.isModifier = false) (h : s.Fits k.signature objects) :
    k.arity.accepts objects.length := by
  rw [← List.Forall₂.length_eq h]
  cases k with
  | mirror => cases hk
  | _ => rfl

theorem Fits.suits (hk : k.isModifier = false) (h : s.Fits k.signature objects) :
    k.Suits s objects :=
  ⟨h.accepted hk, fun _ => h⟩

theorem claim_nil (i : ConstraintId) : s.claim [] i = .ok s :=
  claim_eq_ok_iff.mpr ⟨List.forall_mem_nil _, (s.mark_nil _ _).symm⟩

end Sketch

namespace Constraint

open Constant (Raw)

variable {s t : Sketch K} {c : Constraint K} {k : Kind} {objects : List ObjectId}
  {constants : Table (Raw K)} {o : Options K}

theorem length_allocate (ps : List (ScopeParam K)) (s : Sketch K) :
    ((allocate ps).run s).1.params.length = ps.length ∧
      ((allocate ps).run s).1.auxiliary.length = ps.countP ScopeParam.isFresh := by
  induction ps generalizing s with
  | nil => exact ⟨rfl, rfl⟩
  | cons p ps ih =>
    cases p with
    | held h =>
      obtain ⟨params, auxiliary⟩ := ih s
      exact ⟨congrArg Nat.succ params, auxiliary⟩
    | fresh p =>
      obtain ⟨params, auxiliary⟩ := ih ((Sketch.addParam p).run s).2
      refine ⟨congrArg Nat.succ params, ?_⟩
      rw [List.countP_cons_of_pos rfl]
      exact congrArg Nat.succ auxiliary

/-- A scope that brings nothing along leaves the sketch as it is. -/
theorem run_allocate_held (hs : List Handle) (s : Sketch K) :
    (allocate (hs.map .held)).run s = (⟨hs, []⟩, s) := by
  induction hs with
  | nil => rfl
  | cons h hs ih =>
    have step : (allocate ((h :: hs).map .held)).run s =
        ({ ((allocate (hs.map .held)).run s).1 with
            params := h :: ((allocate (hs.map .held)).run s).1.params },
          ((allocate (hs.map .held)).run s).2) := rfl
    rw [step, ih]

variable [Scalar K]

/-- Taking a scope is gathering it and adding what is new in it. -/
theorem outcome_takeScope (k : Kind) (objects : List ObjectId) (o : Options K) (s : Sketch K) :
    outcome (takeScope k objects o) s =
      match outcome (k.gather s o objects) [] with
      | (.ok (), ps) => (.ok ((allocate ps).run s).1, ((allocate ps).run s).2)
      | (.error e, ps) =>
        (.error e, ((allocate ps).run s).2.removeParams ((allocate ps).run s).1.auxiliary) := by
  have scope : (gatherScope k objects o).run s =
      (((outcome (k.gather s o objects) []).1,
        ((allocate (outcome (k.gather s o objects) []).2).run s).1),
        ((allocate (outcome (k.gather s o objects) []).2).run s).2) := rfl
  unfold takeScope
  rw [outcome_bind_ok (outcome_liftM _ s), scope]
  obtain ⟨answer, ps⟩ := outcome (k.gather s o objects) []
  cases answer <;> rfl

section Scope

variable {P : Prop} {ok : Unit → Prop} {n b : Nat}

theorem exists_takeScope (h : Gather.Takes (k.gather s o objects) P ok n b) (hp : P) :
    ∃ scope t, outcome (takeScope k objects o) s = (.ok scope, t) := by
  obtain ⟨a, ps, -, -, -, adds⟩ := h.adds hp
  rw [outcome_takeScope, adds []]
  exact ⟨_, _, rfl⟩

theorem of_takeScope (h : Gather.Takes (k.gather s o objects) P ok n b) {scope : Scope}
    (taken : outcome (takeScope k objects o) s = (.ok scope, t)) :
    P ∧ scope.params.length = n ∧ scope.auxiliary.length = b := by
  rw [outcome_takeScope] at taken
  by_cases hp : P
  · obtain ⟨a, ps, -, hn, hb, adds⟩ := h.adds hp
    rw [adds []] at taken
    cases taken
    obtain ⟨params, auxiliary⟩ := length_allocate ps s
    exact ⟨hp, params.trans hn, auxiliary.trans hb⟩
  · obtain ⟨e, r, he⟩ := h.fails hp []
    rw [he] at taken
    cases taken

end Scope

omit [Scalar K] in
/-- Where taking targets succeeds, it is a claim on them. -/
theorem takeTargets_eq_ok {u v : Sketch K} {id : ConstraintId} {managed : List ObjectId}
    {scope : Scope} : outcome (takeTargets id managed scope) u = (.ok (), v) ↔
      u.claim managed id = .ok v := by
  unfold takeTargets
  rw [outcome_bind_ok (outcome_get u)]
  cases u.claim managed id with
  | ok w =>
    constructor
    · intro h
      cases h
      rfl
    · intro h
      cases h
      rfl
  | error e =>
    constructor
    · intro h
      cases h
    · intro h
      cases h

/-- A constraint is made in three steps: its number, its scope, its targets. -/
theorem make_eq_ok : outcome (make k objects constants o) s = (.ok c, t) ↔
    k.arity.accepts objects.length ∧
      ∃ scope u, outcome (takeScope k objects o) s.numbered = (.ok scope, u) ∧
        u.claim (k.targets objects) ⟨s.constraintsMade⟩ = .ok t ∧
        c = ⟨⟨s.constraintsMade⟩, k, objects, constants, scope.params, scope.auxiliary,
          k.sources objects, k.targets objects, false, o⟩ := by
  unfold make Kind.targets Kind.sources
  by_cases arity : k.arity.accepts objects.length
  · simp only [arity, Bool.not_true, Bool.false_eq_true, if_false, true_and]
    rw [outcome_bind_ok (outcome_liftM _ s), outcome_bind_eq_ok]
    refine exists_congr fun scope => exists_congr fun u => and_congr_right fun _ => ?_
    cases k.split? objects with
    | none =>
      simp only [outcome_pure, Prod.mk.injEq, Except.ok.injEq, Sketch.claim_nil]
      rw [eq_comm (a := c), and_comm]
      exact Iff.rfl
    | some split =>
      obtain ⟨reference, managed⟩ := split
      rw [outcome_bind_eq_ok]
      constructor
      · intro ⟨_, v, taken, made⟩
        cases made
        exact ⟨takeTargets_eq_ok.mp taken, rfl⟩
      · intro ⟨claimed, made⟩
        subst made
        exact ⟨(), t, takeTargets_eq_ok.mpr claimed, rfl⟩
  · simp only [arity, Bool.not_false, if_true]
    constructor
    · intro h
      cases h
    · intro ⟨h, _⟩
      cases h

theorem fields_make (h : outcome (make k objects constants o) s = (.ok c, t)) :
    c.kind = k ∧ c.objects = objects ∧ c.constants = constants ∧ c.options = o := by
  obtain ⟨-, scope, u, -, -, rfl⟩ := make_eq_ok.mp h
  exact ⟨rfl, rfl, rfl, rfl⟩

theorem sameShapes_make (h : outcome (make k objects constants o) s = (.ok c, t)) :
    s.SameShapes t :=
  ((leaves_make k objects constants o s).installs h).sameShapes

variable (constants o) in
/-- With a scope of held parameters alone, the sketch counts one constraint more and stays as it is
otherwise. -/
theorem make_of_held (accepted : k.arity.accepts objects.length) (residual : k.isModifier = false)
    {hs : List Handle}
    (gathered : outcome (k.gather s.numbered o objects) [] = (.ok (), hs.map .held)) :
    outcome (make k objects constants o) s =
      (.ok ⟨⟨s.constraintsMade⟩, k, objects, constants, hs, [], [], [], false, o⟩, s.numbered) := by
  have split : k.split? objects = none := by
    rw [Kind.split?, residual]
    rfl
  have targets : k.targets objects = [] := by rw [Kind.targets, split]
  have sources : k.sources objects = [] := by rw [Kind.sources, split]
  refine make_eq_ok.mpr ⟨accepted, ⟨hs, []⟩, s.numbered, ?_, ?_, ?_⟩
  · rw [outcome_takeScope, gathered]
    simp only [run_allocate_held]
  · rw [targets, Sketch.claim_nil]
  · rw [targets, sources]

/-- What a constraint is from its making on, whatever becomes of its constants. -/
structure Formed (c : Constraint K) (s : Sketch K) : Prop where
  suits : c.kind.Suits s c.objects
  params : c.params.length = c.kind.scopeSize
  auxiliary : c.auxiliary.length = c.kind.brought
  sources : c.reference = c.kind.sources c.objects
  targets : c.managed = c.kind.targets c.objects

/-- Every kind with residuals gathers its scope from objects that fit, and only from these. -/
theorem takes_scope (g : s.Grounded) (accepted : k.arity.accepts objects.length) :
    Gather.Takes (k.gather s o objects) (k.isModifier = false → s.Fits k.signature objects)
      (fun _ => True) k.scopeSize k.brought := by
  by_cases hk : k.isModifier = false
  · exact (Gather.takes_gather g hk o accepted).iff ⟨fun fits _ => fits, fun fits => fits hk⟩
  · cases k with
    | mirror => exact (Gather.takes_pure trivial).iff ⟨fun _ h => absurd h hk, fun _ => trivial⟩
    | _ => exact absurd rfl hk

theorem formed_make (g : s.Grounded) (h : outcome (make k objects constants o) s = (.ok c, t)) :
    c.Formed s := by
  obtain ⟨accepted, scope, u, taken, -, rfl⟩ := make_eq_ok.mp h
  obtain ⟨fits, params, auxiliary⟩ := of_takeScope (takes_scope (s := s.numbered) g accepted) taken
  exact ⟨⟨accepted, fits⟩, params, auxiliary, rfl, rfl⟩

variable (constants o) in
/-- Objects that suit the kind and targets without an owner are all it takes. -/
theorem exists_make (g : s.Grounded) (suits : k.Suits s objects)
    (free : ∀ id ∈ k.targets objects, s.owner id = .ok none) :
    ∃ c t, outcome (make k objects constants o) s = (.ok c, t) := by
  obtain ⟨scope, u, taken⟩ :=
    exists_takeScope (takes_scope (s := s.numbered) (o := o) g suits.accepted) suits.fits
  have grown : Sketch.Grows scope.auxiliary s.numbered u := by
    have ends := ends_takeScope k objects o s.numbered
    rw [taken] at ends
    exact ends
  have unowned : ∀ id ∈ k.targets objects, u.owner id = .ok none := fun id hid =>
    (Sketch.owner_congr grown.entities id).trans (free id hid)
  have claimed := Sketch.claim_eq_ok_iff (i := ⟨s.constraintsMade⟩).mpr ⟨unowned, rfl⟩
  exact ⟨_, _, make_eq_ok.mpr ⟨suits.accepted, scope, u, taken, claimed, rfl⟩⟩

omit [Scalar K] in
/-- What becomes of the constants does not matter. -/
theorem Formed.withConstants (f : c.Formed s) (table : Table (Raw K)) :
    { c with constants := table }.Formed s :=
  ⟨f.suits, f.params, f.auxiliary, f.sources, f.targets⟩

variable (constants o) in
/-- A constraint with residuals is made of the objects that fit its signature and of no others. -/
theorem exists_make_iff (g : s.Grounded) (hk : k.isModifier = false) :
    (∃ c t, outcome (make k objects constants o) s = (.ok c, t)) ↔
      s.Fits k.signature objects := by
  constructor
  · intro ⟨c, t, h⟩
    obtain ⟨-, scope, u, -, -, rfl⟩ := make_eq_ok.mp h
    exact (formed_make g h).suits.fits hk
  · intro fits
    refine exists_make constants o g (fits.suits hk) ?_
    cases k with
    | mirror => cases hk
    | _ =>
      intro id hid
      cases hid

end Constraint

end Drafting
