import Drafting.Double
import Drafting.Proofs.Advancing

namespace Drafting

open Constant (Raw)

variable {K : Type}

/-- A sketch with all constraints that were ever made on it. -/
structure Board (K : Type) where
  sketch : Sketch K
  made : List (Constraint K)

/-- Everything that is done to a sketch from outside. -/
inductive Act (K : Type) where
  | addPoint (v : Vec K)
  | addSegment (start finish : Vec K)
  | addSegmentBetween (a b : ObjectId)
  | addCircle (center : Vec K) (r : K)
  | addArc (center : Vec K) (r ang1 ang2 : K)
  | addEllipse (ep1 ep2 : Vec K) (r : K)
  | addBezier (p0 p1 p2 p3 : Vec K)
  | addParam (p : Param K)
  | removeParam (h : Handle)
  | setValue (h : Handle) (x : K)
  | setPosition (id : ObjectId) (v : Vec K)
  | mirrorInto (r : Reflection K) (source target : ObjectId)
  | claim (ids : List ObjectId) (owner : ConstraintId)
  | release (ids : List ObjectId) (owner : ConstraintId)
  | clear
  | make (kind : Kind) (objects : List ObjectId) (constants : Table (Raw K)) (o : Options K)
  | create (kind : Kind) (objects : List ObjectId)
  | consistencyFor (object : ObjectId)
  | read (r : Record K)
  | readVia (index : ObjectId → Option ObjectId) (r : Record K)
  | releaseConstraint (c : Constraint K)

namespace Board

def empty : Board K := ⟨.empty, []⟩

def put (b : Board K) : Except SketchError (Sketch K) → Board K
  | .ok s => { b with sketch := s }
  | .error _ => b

def keep (b : Board K) (made : Option (Constraint K)) (s : Sketch K) : Board K :=
  ⟨s, b.made ++ made.toList⟩

end Board

section Run

variable [Scalar K] [Written K]

def Act.run (b : Board K) : Act K → Board K
  | .addPoint v => { b with sketch := ((Sketch.addPoint v).run b.sketch).2 }
  | .addSegment start finish =>
    { b with sketch := ((Sketch.addSegment start finish).run b.sketch).2 }
  | .addSegmentBetween x y => b.put ((Sketch.addSegmentBetween x y b.sketch).map (·.2))
  | .addCircle center r => { b with sketch := ((Sketch.addCircle center r).run b.sketch).2 }
  | .addArc center r ang1 ang2 =>
    { b with sketch := ((Sketch.addArc center r ang1 ang2).run b.sketch).2 }
  | .addEllipse ep1 ep2 r => { b with sketch := ((Sketch.addEllipse ep1 ep2 r).run b.sketch).2 }
  | .addBezier p0 p1 p2 p3 => { b with sketch := ((Sketch.addBezier p0 p1 p2 p3).run b.sketch).2 }
  | .addParam p => { b with sketch := ((Sketch.addParam p).run b.sketch).2 }
  | .removeParam h => { b with sketch := b.sketch.removeParam h }
  | .setValue h x => { b with sketch := b.sketch.setValue h x }
  | .setPosition id v => b.put (b.sketch.setPosition id v)
  | .mirrorInto r source target =>
    { b with sketch := (outcome (Sketch.mirrorInto r source target) b.sketch).2 }
  | .claim ids owner => b.put (b.sketch.claim ids owner)
  | .release ids owner => { b with sketch := b.sketch.release ids owner }
  | .clear => { b with sketch := b.sketch.clear }
  | .make kind objects constants o =>
    let made := outcome (Constraint.make kind objects constants o) b.sketch
    b.keep made.1.toOption made.2
  | .create kind objects =>
    let made := outcome (Constraint.create kind objects) b.sketch
    b.keep made.1.toOption made.2
  | .consistencyFor object =>
    let made := outcome (Constraint.consistencyFor object) b.sketch
    b.keep made.1.toOption.join made.2
  | .read r =>
    let made := outcome (Constraint.read r) b.sketch
    b.keep made.1.toOption made.2
  | .readVia index r =>
    let made := outcome (Constraint.readVia index r) b.sketch
    b.keep made.1.toOption made.2
  | .releaseConstraint c => { b with sketch := c.release b.sketch }

end Run

/-- The parameters that an operation takes away without their objects. -/
def Act.lost : Act K → List Handle
  | .removeParam h => [h]
  | .releaseConstraint c => c.auxiliary
  | _ => []

/-- Parameters that an object uses are not taken away, and a constraint is released only if it was
made. -/
def Act.Allowed (b : Board K) : Act K → Prop
  | .removeParam h => h ∉ b.sketch.fields
  | .releaseConstraint c => c ∈ b.made
  | _ => True

namespace Board

def Reaches [Scalar K] [Written K] : Board K → Board K → Prop :=
  Relation.ReflTransGen fun b b' => ∃ act : Act K, act.Allowed b ∧ b' = act.run b

end Board

namespace Board

variable {b b' : Board K} {s t : Sketch K} {lost : List Handle}

/-- The sketch is well-formed, and constraints hold no parameter of an object. -/
structure Kept (b : Board K) : Prop where
  wellFormed : b.sketch.WellFormed
  spread : b.sketch.Spread
  apart : ∀ c ∈ b.made, ∀ h ∈ c.auxiliary, b.sketch.Apart h

/-- The start of the induction over operations. -/
theorem Kept.empty : (empty : Board K).Kept :=
  ⟨Sketch.wellFormed_of_empty rfl, by simp [Board.empty, Sketch.Spread, Sketch.empty],
    by simp [Board.empty]⟩

structure Progress (b b' : Board K) : Prop where
  sketch : b.sketch.Advances b'.sketch
  aging : Sketch.Aging b.sketch b'.sketch
  made : ∀ c ∈ b'.made, c ∈ b.made ∨ ∀ h ∈ c.auxiliary, b'.sketch.Apart h

theorem Progress.kept (p : Progress b b') (kept : b.Kept) : b'.Kept := by
  refine ⟨p.sketch.wellFormed kept.wellFormed, p.sketch.spread kept.spread, fun c hc h hh => ?_⟩
  rcases p.made c hc with old | new
  · exact (p.sketch.turns : b.sketch.Turns [] _).apart p.aging (kept.apart c old h hh)
  · exact new h hh

/-- One operation, whatever it takes away. -/
structure Steps (lost : List Handle) (b b' : Board K) : Prop where
  sketch : b.sketch.Turns lost b'.sketch
  aging : Sketch.Aging b.sketch b'.sketch
  constraintsMade : b.sketch.constraintsMade ≤ b'.sketch.constraintsMade
  made : b'.made = b.made ∨ ∃ c, b'.made = b.made ++ [c] ∧ c.Installs b.sketch b'.sketch

/-- It keeps the sketch well-formed where no object loses a parameter. -/
theorem Steps.progress (step : Steps lost b b') (w : b.sketch.WellFormed)
    (other : ∀ h ∈ lost, h ∉ b.sketch.fields) : Progress b b' := by
  refine ⟨step.sketch.advances other, step.aging, fun c hc => ?_⟩
  rcases step.made with same | ⟨d, more, installs⟩
  · exact .inl (same ▸ hc)
  · rw [more] at hc
    rcases List.mem_append.mp hc with old | new
    · exact .inl old
    · rw [List.mem_singleton.mp new]
      exact .inr (installs.apart w)

/-- An operation on the sketch alone. -/
theorem steps_of (turns : b.sketch.Turns lost t) (aging : Sketch.Aging b.sketch t)
    (constraintsMade : b.sketch.constraintsMade ≤ t.constraintsMade) :
    Steps lost b { b with sketch := t } :=
  ⟨turns, aging, constraintsMade, .inl rfl⟩

theorem steps_draw (drawn : Sketch.Drawn b.sketch t) (spread : b.sketch.Spread → t.Spread)
    (aging : Sketch.Aging b.sketch t) : Steps lost b { b with sketch := t } :=
  steps_of (.draw drawn spread) aging (Nat.le_of_eq drawn.constraintsMade.symm)

theorem steps_write {W : Handle → Prop} (writes : b.sketch.Writes W t)
    (aging : Sketch.Aging b.sketch t) : Steps lost b { b with sketch := t } :=
  steps_of writes.advances.turns aging (Nat.le_of_eq writes.constraintsMade.symm)

theorem steps_put {x : Except SketchError (Sketch K)}
    (h : ∀ t, x = .ok t → Steps lost b { b with sketch := t }) : Steps lost b (b.put x) := by
  cases x with
  | ok t => exact h t rfl
  | error e => exact steps_of (Sketch.Unchanged.refl _).advances.turns (.refl _) (Nat.le_refl _)

/-- The same for an attempt to make a constraint, where there may be none in the end. -/
theorem steps_keep {made : Option (Constraint K)}
    (h : match made with
      | some c => c.Installs b.sketch t
      | none => b.sketch.Unchanged t)
    (aging : Sketch.Aging b.sketch t) : Steps lost b (b.keep made t) := by
  cases made with
  | none => exact ⟨h.advances.turns, aging, h.constraintsMade, .inl (List.append_nil _)⟩
  | some c =>
    obtain ⟨old, new⟩ := h.numbered
    exact ⟨h.advances.turns, aging, Nat.le_of_lt (Nat.lt_of_le_of_lt old new), .inr ⟨c, rfl, h⟩⟩

/-- An attempt to make a constraint is a step also where it fails. -/
theorem steps_made {m : Sketch.Edit K ConstraintError (Constraint K)}
    (leaves : Constraint.Leaves b.sketch (outcome m b.sketch)) (aging : Leads Sketch.Aging m) :
    Steps lost b (b.keep (outcome m b.sketch).1.toOption (outcome m b.sketch).2) := by
  refine steps_keep ?_ (aging b.sketch)
  cases run : outcome m b.sketch with
  | mk answer t =>
    rw [run] at leaves
    cases answer with
    | ok c => exact leaves
    | error e => exact leaves

variable [Scalar K] [Written K]

/-- What each operation does, on objects that are in order. -/
theorem steps_run (o : b.sketch.Ordered) (act : Act K) : Steps act.lost b (act.run b) := by
  cases act with
  | addPoint v =>
    exact steps_draw (Sketch.drawn_addPoint v o).1 (fun spread => spread.addPoint v)
      (Sketch.aging_addPoint v b.sketch)
  | addSegment start finish =>
    exact steps_draw (Sketch.drawn_addSegment start finish o)
      (fun spread => spread.addSegment start finish) (Sketch.aging_addSegment start finish b.sketch)
  | addSegmentBetween x y =>
    refine steps_put fun t drawn => ?_
    cases run : Sketch.addSegmentBetween x y b.sketch with
    | error e =>
      rw [run] at drawn
      cases drawn
    | ok r =>
      rw [run] at drawn
      cases drawn
      obtain ⟨d, step, hr⟩ := bind_eq_ok.mp run
      cases hr
      obtain ⟨⟨p, hp⟩, q, hq⟩ := Sketch.points_of_step step
      exact steps_draw (Sketch.drawn_addSegmentOver hp hq d)
        (fun spread => spread.addSegmentOver x y d) (Sketch.aging_addSegmentOver x y d b.sketch)
  | addCircle center r =>
    exact steps_draw (Sketch.drawn_addCircle center r o) (fun spread => spread.addCircle center r)
      (Sketch.aging_addCircle center r b.sketch)
  | addArc center r ang1 ang2 =>
    exact steps_draw (Sketch.drawn_addArc center r ang1 ang2 o)
      (fun spread => spread.addArc center r ang1 ang2)
      (Sketch.aging_addArc center r ang1 ang2 b.sketch)
  | addEllipse ep1 ep2 r =>
    exact steps_draw (Sketch.drawn_addEllipse ep1 ep2 r o)
      (fun spread => spread.addEllipse ep1 ep2 r) (Sketch.aging_addEllipse ep1 ep2 r b.sketch)
  | addBezier p0 p1 p2 p3 =>
    exact steps_draw (Sketch.drawn_addBezier p0 p1 p2 p3 o)
      (fun spread => spread.addBezier p0 p1 p2 p3) (Sketch.aging_addBezier p0 p1 p2 p3 b.sketch)
  | addParam p =>
    exact steps_of (.keep ⟨rfl, rfl⟩ fun _ _ _ live => (Store.Gains.insert _ p).keeps live)
      (Sketch.aging_addParam p b.sketch) (Nat.le_refl _)
  | removeParam h =>
    refine steps_of (.keep ⟨rfl, rfl⟩ fun k _ other live => ?_) (.erase b.sketch.params h)
      (Nat.le_refl _)
    have apart : k ≠ h := fun same => other (by simp [Act.lost, same])
    exact (congrArg Option.isSome (b.sketch.params.get?_erase_of_ne apart)).trans live
  | setValue h x =>
    exact steps_write (Sketch.Writes.setValue (W := fun _ => True) trivial b.sketch x)
      (Sketch.aging_setValue b.sketch h x)
  | setPosition id v =>
    refine steps_put fun t ht => steps_write (W := fun _ => True) ?_ (Sketch.aging_setPosition ht)
    exact .setPosition ht fun _ _ => ⟨trivial, trivial⟩
  | mirrorInto r source target =>
    have writes : Leads (Sketch.Writing b.sketch fun _ => True)
        (Sketch.mirrorInto r source target) :=
      Sketch.leads_mirrorInto r source fun _ _ => trivial
    exact steps_write (writes b.sketch rfl) (Sketch.aging_mirrorInto r source target b.sketch)
  | claim ids owner =>
    refine steps_put fun t ht => ?_
    obtain ⟨-, rfl⟩ := Sketch.claim_eq_ok_iff.mp ht
    exact steps_of (.keep (b.sketch.sameShapes_mark ids _ _) fun _ _ _ live => live)
      (Sketch.aging_of_params rfl) (Nat.le_refl _)
  | release ids owner =>
    exact steps_of (.keep (b.sketch.sameShapes_release ids owner) fun _ _ _ live => live)
      (Sketch.aging_of_params rfl) (Nat.le_refl _)
  | clear => exact steps_of (.clear rfl rfl) (.eraseAll b.sketch.params _) (Nat.le_refl _)
  | make kind objects constants options =>
    exact steps_made (Constraint.leaves_make kind objects constants options b.sketch)
      (Constraint.aging_make kind objects constants options)
  | create kind objects =>
    exact steps_made (Constraint.leaves_create kind objects o)
      (Constraint.aging_create kind objects)
  | consistencyFor object =>
    refine steps_keep ?_ (Constraint.aging_consistencyFor object b.sketch)
    have leaves := Constraint.leavesAny_consistencyFor object b.sketch
    cases run : outcome (Constraint.consistencyFor object) b.sketch with
    | mk answer t =>
      rw [run] at leaves
      cases answer with
      | ok made => exact leaves
      | error e => exact leaves
  | read r =>
    exact steps_made (Constraint.leaves_read r b.sketch) (Constraint.aging_read r)
  | readVia index r =>
    exact steps_made (Constraint.leaves_readVia index r b.sketch)
      (Constraint.aging_readVia index r)
  | releaseConstraint c =>
    refine steps_of (.keep (c.sameShapes_release b.sketch) fun h _ other live => ?_)
      (Constraint.aging_release c b.sketch) (Nat.le_refl _)
    have apart : h ∉ c.auxiliary := other
    rwa [c.param?_release, if_neg apart]

/-- Every operation that is allowed keeps the sketch well-formed. -/
theorem progress_run (kept : b.Kept) (act : Act K) (allowed : act.Allowed b) :
    Progress b (act.run b) := by
  refine (steps_run kept.wellFormed.toOrdered act).progress kept.wellFormed fun h hh => ?_
  cases act with
  | removeParam k =>
    obtain rfl : h = k := List.mem_singleton.mp hh
    exact allowed
  | releaseConstraint c => exact (kept.apart c allowed h hh).other
  | _ => cases hh

/-- The invariant on every sketch that is reached, by induction on the operations. -/
theorem kept_of_reaches (kept : b.Kept) (reached : b.Reaches b') : b'.Kept := by
  induction reached with
  | refl => exact kept
  | tail _ step ih =>
    obtain ⟨act, allowed, rfl⟩ := step
    exact (progress_run ih act allowed).kept ih

/-- Numbers of objects are given once in the whole run. -/
theorem follows_of_reaches (kept : b.Kept) (reached : b.Reaches b') :
    b.sketch.Follows b'.sketch := by
  induction reached with
  | refl => exact .refl b.sketch
  | tail before step ih =>
    obtain ⟨act, allowed, rfl⟩ := step
    have progress := progress_run (kept_of_reaches kept before) act allowed
    exact ih.trans progress.sketch.follows

/-- On every sketch that is reached, objects have numbers of their own, which are given once, and
are built on points that were drawn before them; their parameters are live, and no two are the same.
So the visit of an object comes to its end, in the documented order, and the visit of none comes to
nothing. -/
theorem reached_wellFormed (reached : empty.Reaches b) :
    let s := b.sketch
    (∀ e ∈ s.entities, s.entity? e.id = some e ∧ e.id.val ≤ s.lastObject) ∧
    (∀ b', b.Reaches b' → s.Follows b'.sketch) ∧
    (∀ e ∈ s.entities, ∀ c ∈ e.shape.children,
      c.val < e.id.val ∧ ∃ p, s.point c = .ok p) ∧
    (s.fields.Nodup ∧ ∀ h ∈ s.fields, (s.param? h).isSome) ∧
    (∀ id e, s.entity? id = some e → e.id = id ∧ ∃ hs, s.Visits id e.shape hs) ∧
    ∀ id, s.entity? id = none → s.objectParams id = .error (.unknownObject id) ∧
      ∀ depth seen, outcome (s.walk (depth + 1) id) seen =
        (.error (some (.unknownObject id)), seen) := by
  intro s
  have kept := kept_of_reaches .empty reached
  have w := kept.wellFormed
  refine ⟨fun e he => ⟨?_, w.numbered e he⟩, fun b' later => follows_of_reaches kept later,
    w.children, ⟨w.distinct, w.live⟩, fun id e he => ⟨Sketch.id_of_entity? he, ?_⟩,
    fun id missing => ⟨Sketch.objectParams_of_missing missing, Sketch.walk_missing missing⟩⟩
  · exact (Sketch.entity?_eq_some_iff w.toOrdered).mpr ⟨he, rfl⟩
  · exact w.exists_visits he (kept.spread e (List.mem_of_find?_eq_some he))

theorem reaches_foldl {acts : List (Act K)} (allowed : ∀ act ∈ acts, ∀ b, act.Allowed b) :
    b.Reaches (acts.foldl Act.run b) := by
  induction acts generalizing b with
  | nil => exact .refl
  | cons act acts ih =>
    refine .head ⟨act, allowed act (by simp) b, rfl⟩ (ih fun other ho => ?_)
    exact allowed other (List.mem_cons_of_mem act ho)

theorem wellFormed_foldl {acts : List (Act K)} (allowed : ∀ act ∈ acts, ∀ b, act.Allowed b) :
    (acts.foldl Act.run empty).sketch.WellFormed :=
  (kept_of_reaches .empty (reaches_foldl allowed)).wellFormed

/-- The slots of a curve and of a constraint on it are used again by a segment. -/
def reused : Board Float :=
  [.addPoint ⟨0, 0⟩, .addBezier ⟨0, 0⟩ ⟨1, 2⟩ ⟨3, 2⟩ ⟨4, 0⟩, .create .pointOnBezier [⟨1⟩, ⟨6⟩],
    .clear, .addSegment ⟨0, 0⟩ ⟨1, 1⟩].foldl Act.run empty

/-- The constraint is released only now, and takes nothing of the segment away. -/
theorem reached_wellFormed_reused :
    reused.made.map (·.auxiliary) = [[⟨11, 1⟩]] ∧ ∀ c ∈ reused.made,
      ∃ e, (c.release reused.sketch).entity? ⟨9⟩ = some e ∧
        ∃ hs, (c.release reused.sketch).Visits ⟨9⟩ e.shape hs := by
  refine ⟨by decide +kernel, fun c made => ?_⟩
  have before : (empty : Board Float).Reaches reused := by
    refine reaches_foldl fun act hact b => ?_
    simp only [List.mem_cons, List.not_mem_nil, or_false] at hact
    rcases hact with rfl | rfl | rfl | rfl | rfl <;> trivial
  have reached : (empty : Board Float).Reaches { reused with sketch := c.release reused.sketch } :=
    .tail before ⟨.releaseConstraint c, made, rfl⟩
  obtain ⟨-, -, -, -, visits, -⟩ := reached_wellFormed reached
  have drawn : (reused.sketch.entity? ⟨9⟩).isSome := by decide +kernel
  obtain ⟨d, hd⟩ := Option.isSome_iff_exists.mp drawn
  obtain ⟨e, he, -⟩ := (c.sameShapes_release reused.sketch).keeps ⟨9⟩ d hd
  exact ⟨e, he, (visits ⟨9⟩ e he).2⟩

end Board

end Drafting
