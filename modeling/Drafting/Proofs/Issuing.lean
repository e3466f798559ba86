import Drafting.Proofs.Construction
import Drafting.Proofs.Slots

namespace Drafting

variable {K : Type}

namespace Sketch

variable {s t u : Sketch K} {α β : Type}

/-- An operation on the parameters brings no handle back. -/
def Aging (s t : Sketch K) : Prop := s.params.Ages t.params

theorem Aging.refl (s : Sketch K) : Aging s s := Store.Ages.refl s.params

theorem Aging.trans (a : Aging s t) (a' : Aging t u) : Aging s u := Store.Ages.trans a a'

theorem aging_of_params (same : t.params = s.params) : Aging s t := by
  rw [Aging, same]
  exact .refl s.params

theorem aging_setValue (s : Sketch K) (h : Handle) (x : K) : Aging s (s.setValue h x) :=
  .update s.params h _

/-- A slot that is freed comes back under a later generation only. -/
theorem aging_removeParams (s : Sketch K) (hs : List Handle) : Aging s (s.removeParams hs) :=
  .eraseAll s.params hs

/-- A parameter that is added is under a handle that was not given before. -/
theorem aging_addParam (p : Param K) (s : Sketch K) : Aging s ((addParam p).run s).2 :=
  .insert s.params p

theorem aging_addPoint (v : Vec K) (s : Sketch K) : Aging s ((addPoint v).run s).2 :=
  (aging_addParam ⟨v.x, "x", []⟩ s).trans (aging_addParam ⟨v.y, "y", []⟩ _)

theorem aging_addCircle (center : Vec K) (r : K) (s : Sketch K) :
    Aging s ((addCircle center r).run s).2 :=
  (aging_addPoint center s).trans (aging_addParam ⟨r, "r", []⟩ _)

theorem aging_addEllipse (ep1 ep2 : Vec K) (r : K) (s : Sketch K) :
    Aging s ((addEllipse ep1 ep2 r).run s).2 :=
  ((aging_addPoint ep1 s).trans (aging_addPoint ep2 _)).trans (aging_addParam ⟨r, "r", []⟩ _)

theorem aging_addBezier (p0 p1 p2 p3 : Vec K) (s : Sketch K) :
    Aging s ((addBezier p0 p1 p2 p3).run s).2 :=
  (((aging_addPoint p0 s).trans (aging_addPoint p1 _)).trans (aging_addPoint p2 _)).trans
    (aging_addPoint p3 _)

variable [Scalar K]

theorem aging_addSegmentOver (a b : ObjectId) (d : Vec K) (s : Sketch K) :
    Aging s ((addSegmentOver a b d).run s).2 :=
  (aging_addParam ⟨d.direction, "ang", []⟩ s).trans (aging_addParam ⟨d.norm, "t", []⟩ _)

theorem aging_addSegment (start finish : Vec K) (s : Sketch K) :
    Aging s ((addSegment start finish).run s).2 :=
  ((aging_addPoint start s).trans (aging_addPoint finish _)).trans
    ((aging_addParam ⟨(finish.sub start).direction, "ang", []⟩ _).trans
      (aging_addParam ⟨Scalar.hypot (finish.sub start).x (finish.sub start).y, "t", []⟩ _))

theorem aging_addArc (center : Vec K) (r ang1 ang2 : K) (s : Sketch K) :
    Aging s ((addArc center r ang1 ang2).run s).2 :=
  (((aging_addPoint center s).trans (aging_addPoint (onCircle center r ang1) _)).trans
    (aging_addPoint (onCircle center r ang2) _)).trans
      (((aging_addParam ⟨r, "r", []⟩ _).trans (aging_addParam ⟨ang1, "ang1", []⟩ _)).trans
        (aging_addParam ⟨ang2, "ang2", []⟩ _))

section Edits

variable {ε : Type}

omit [Scalar K] in
/-- No handle comes back in either part, whether or not the second is reached. -/
theorem Aging.bind {m : Edit K ε α} {f : α → Edit K ε β} (hm : Leads Aging m)
    (hf : ∀ a, Leads Aging (f a)) : Leads Aging (m >>= f) :=
  Leads.bind (R := Aging) Aging.trans hm hf

omit [Scalar K] in
theorem aging_ask (q : Sketch K → Except ε α) : Leads Aging (ask q : Edit K ε α) := by
  intro s
  rw [outcome_ask]
  exact .refl s

omit [Scalar K] in
theorem aging_throw (e : ε) : Leads Aging (throw e : Edit K ε α) := fun s => .refl s

omit [Scalar K] in
theorem aging_writeValue (h : Handle) (x : K) : Leads Aging (writeValue h x) :=
  fun s => aging_setValue s h x

theorem aging_copyValue (source target : Handle) :
    Leads Aging (copyValue source target : Edit K SketchError Unit) :=
  fun s => aging_setValue s target _

omit [Scalar K] in
/-- Points are moved by writing values. -/
theorem aging_setPosition {id : ObjectId} {v : Vec K} (ht : s.setPosition id v = .ok t) :
    Aging s t := by
  obtain ⟨p, -, hset⟩ := bind_eq_ok.mp ht
  cases hset
  exact (aging_setValue s p.x v.x).trans (aging_setValue _ p.y v.y)

theorem aging_reflectPoint (r : Reflection K) (source target : ObjectId) :
    Leads Aging (reflectPoint r source target) := by
  refine Aging.bind (aging_ask _) fun v s => ?_
  refine outcome_bind_of (P := fun x => Aging s x.2) (fun u t asked => ?_) (fun e t asked => ?_)
  · obtain ⟨moved, rfl⟩ := outcome_ask_eq_ok.mp asked
    exact aging_setPosition moved
  · rw [outcome_ask] at asked
    obtain ⟨-, rfl⟩ := Prod.mk.inj asked
    exact .refl s

/-- Mirroring that fails has written values by then, and values give no handles. -/
theorem aging_mirrorInto (r : Reflection K) (source target : ObjectId) :
    Leads Aging (mirrorInto r source target) := by
  have moved : ∀ a d : ObjectId, Leads Aging (discard (reflectPoint r a d)) :=
    fun a d => (aging_reflectPoint r a d).discard
  refine Aging.bind (aging_ask _) fun src => Aging.bind (aging_ask _) fun dst => ?_
  split
  · exact moved source target
  · rename_i a d _ _
    refine Aging.bind (aging_reflectPoint r a.a d.a) fun p => ?_
    refine Aging.bind (aging_reflectPoint r a.b d.b) fun q => ?_
    exact Aging.bind (aging_writeValue d.ang _) fun _ => aging_copyValue a.t d.t
  · rename_i a d _ _
    exact Aging.bind (moved a.c d.c) fun _ => aging_copyValue a.r d.r
  · rename_i a d _ _
    refine Aging.bind (aging_reflectPoint r a.c d.c) fun c => ?_
    refine Aging.bind (aging_reflectPoint r a.b d.a) fun p => ?_
    refine Aging.bind (aging_reflectPoint r a.a d.b) fun q => ?_
    refine Aging.bind (aging_copyValue a.r d.r) fun _ => ?_
    exact Aging.bind (aging_writeValue d.ang1 _) fun _ => aging_writeValue d.ang2 _
  · rename_i a d _ _
    refine Aging.bind (moved a.ep1 d.ep1) fun _ => Aging.bind (moved a.ep2 d.ep2) fun _ => ?_
    exact aging_copyValue a.r d.r
  · rename_i a d _ _
    refine Aging.bind (moved a.p0 d.p0) fun _ => Aging.bind (moved a.p1 d.p1) fun _ => ?_
    exact Aging.bind (moved a.p2 d.p2) fun _ => moved a.p3 d.p3
  · exact aging_throw _

end Edits

end Sketch

namespace Constraint

open Sketch (Aging)

theorem aging_allocate (ps : List (ScopeParam K)) (s : Sketch K) :
    Aging s ((allocate ps).run s).2 := by
  induction ps generalizing s with
  | nil => exact .refl s
  | cons p ps ih =>
    cases p with
    | held h => exact ih s
    | fresh p => exact (Sketch.aging_addParam p s).trans (ih _)

theorem aging_takeTargets (id : ConstraintId) (managed : List ObjectId) (scope : Scope) :
    Leads Aging (takeTargets (K := K) id managed scope) := by
  intro s
  unfold takeTargets
  rw [outcome_bind_ok (outcome_get s)]
  cases h : s.claim managed id with
  | ok t =>
    obtain ⟨-, rfl⟩ := Sketch.claim_eq_ok_iff.mp h
    exact Sketch.aging_of_params rfl
  | error e => exact Sketch.aging_removeParams s scope.auxiliary

/-- Whenever it comes, a release can only take parameters away. -/
theorem aging_release (c : Constraint K) (s : Sketch K) : Aging s (c.release s) :=
  Sketch.aging_removeParams (s.release c.managed c.id) c.auxiliary

variable [Scalar K]

/-- A scope that is not gathered to its end adds no parameter at all. -/
theorem aging_takeScope (kind : Kind) (objects : List ObjectId) (o : Options K) :
    Leads Aging (takeScope kind objects o) := by
  unfold takeScope
  refine Aging.bind (fun s => ?_) fun gathered => ?_
  · exact aging_allocate ((kind.gather s o objects).run.run []).2 s
  · obtain ⟨answer, scope⟩ := gathered
    cases answer with
    | ok _ => exact fun s => .refl s
    | error e => exact fun s => Sketch.aging_removeParams s scope.auxiliary

/-- What a failure takes away again has used its handles up. -/
theorem aging_make (kind : Kind) (objects : List ObjectId) (constants : Table (Constant.Raw K))
    (o : Options K) : Leads Aging (make kind objects constants o) := by
  unfold make
  by_cases arity : kind.arity.accepts objects.length
  · simp only [arity, Bool.not_true, Bool.false_eq_true, if_false]
    refine Aging.bind (fun s => Sketch.aging_of_params rfl) fun id => ?_
    refine Aging.bind (aging_takeScope kind objects o) fun scope => ?_
    cases kind.split? objects with
    | none => exact fun s => .refl s
    | some split => exact Aging.bind (aging_takeTargets id split.2 scope) fun _ s => .refl s
  · simp only [arity, Bool.not_false, if_true]
    exact Sketch.aging_throw _

theorem aging_modify (c : Constraint K) : Leads Aging c.modify := by
  intro s
  unfold modify Kind.modify
  split
  · cases c.reference with
    | nil => exact .refl s
    | cons line sources =>
      rw [outcome_adapt]
      refine Aging.bind (Sketch.aging_ask _) (fun r => ?_) s
      exact Leads.forM Aging.refl Aging.trans fun pair _ => Sketch.aging_mirrorInto r pair.1 pair.2
  · exact .refl s

theorem aging_create [Written K] (kind : Kind) (objects : List ObjectId) :
    Leads Aging (create (K := K) kind objects) := by
  refine Aging.bind (aging_make kind objects .empty .standard) fun c s => ?_
  rw [outcome_bind_ok (outcome_get s)]
  cases c.initConstants s with
  | ok d => exact .refl s
  | error e => exact aging_release c s

theorem aging_consistencyFor (object : ObjectId) :
    Leads Aging (consistencyFor (K := K) object) := by
  have made : ∀ k : Kind, Leads Aging (do
      let c ← make (K := K) k [object] .empty .standard
      pure (some { c with isInternal := true })) :=
    fun k => Aging.bind (aging_make k [object] .empty .standard) fun c s => .refl s
  refine Aging.bind (Sketch.aging_ask _) fun kind => ?_
  cases kind with
  | segment => exact made .segmentConsistency
  | arc => exact made .arcConsistency
  | _ => exact fun s => .refl s

theorem aging_readVia (index : ObjectId → Option ObjectId) (r : Record K) :
    Leads Aging (readVia index r) := by
  refine Aging.bind (Leads.mapM Aging.refl Aging.trans fun id _ => ?_) fun objects => ?_
  · cases index id with
    | none => exact Sketch.aging_throw _
    | some live => exact fun s => .refl s
  · cases Kind.ofId? r.typeId with
    | none => exact Sketch.aging_throw _
    | some kind => exact aging_make kind objects r.constants .standard

theorem aging_read (r : Record K) : Leads Aging (read r) := by
  intro s
  unfold read
  rw [outcome_bind_ok (outcome_get s)]
  exact aging_readVia _ r s

end Constraint

end Drafting
