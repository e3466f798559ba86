import Drafting.Proofs.Naming

namespace Drafting

open Sketch (Drawn)

variable {K α β : Type}

structure NamedObject where
  kind : ShapeKind
  name : String
  id : ObjectId

def NamedObject.event (p : NamedObject) : Event := .added p.kind p.name p.id

def NamedObject.label (p : NamedObject) : ShapeKind × String := (p.kind, p.name)

namespace Workbench

variable {b b' b'' : Workbench K} {new more : List NamedObject} {name : String}

structure Places (b b' : Workbench K) (new : List NamedObject) : Prop where
  sketch : Drawn b.sketch b'.sketch
  objects : ∃ es, b'.sketch.entities = b.sketch.entities ++ es ∧ es.map (·.id) = new.map (·.id)
  names : b'.names = b.names ++ new.map fun p => (p.name, p.id)
  history : b'.history = b.history ++ new.map NamedObject.event
  constraints : b'.constraints = b.constraints
  autoCheck : b'.autoCheck = b.autoCheck
  points : ∀ p ∈ new, p.kind = .point → ∃ q, b'.sketch.point p.id = .ok q

namespace Places

theorem refl (b : Workbench K) : Places b b [] :=
  ⟨.refl, ⟨[], by simp, rfl⟩, by simp, by simp, rfl, rfl, by simp⟩

theorem ordered (h : Places b b' new) (o : b.sketch.Ordered) : b'.sketch.Ordered :=
  h.sketch.ordered o

theorem trans (h : Places b b' new) (h' : Places b' b'' more) (o : b.sketch.Ordered) :
    Places b b'' (new ++ more) where
  sketch := h.sketch.trans h'.sketch
  objects := by
    obtain ⟨es, drawn, ids⟩ := h.objects
    obtain ⟨ds, later, ids'⟩ := h'.objects
    refine ⟨es ++ ds, ?_, by rw [List.map_append, List.map_append, ids, ids']⟩
    rw [later, drawn, List.append_assoc]
  names := by rw [h'.names, h.names, List.map_append, List.append_assoc]
  history := by rw [h'.history, h.history, List.map_append, List.append_assoc]
  constraints := h'.constraints.trans h.constraints
  autoCheck := h'.autoCheck.trans h.autoCheck
  points := by
    refine List.forall_mem_append.mpr ⟨fun p hp point => ?_, h'.points⟩
    obtain ⟨q, hq⟩ := h.points p hp point
    exact ⟨q, h'.sketch.point (h.ordered o) hq⟩

/-- Where nothing was placed, nothing was drawn. -/
theorem sketch_of_nil (h : Places b b' []) : b'.sketch = b.sketch := by
  obtain ⟨es, drawn, none⟩ := h.objects
  refine h.sketch.eq_of_entities ?_
  rw [drawn, List.map_eq_nil_iff.mp none, List.append_nil]

/-- A row takes the names of its parts and no others. -/
theorem mem_taken (h : Places b b' new) : name ∈ b'.taken ↔ name ∈ b.taken ∨
    name ∈ new.map (·.name) := by
  simp only [taken, h.names, h.constraints, List.map_append, List.map_map, List.mem_append]
  tauto

end Places

def Stands (b : Workbench K) (name : String) : Prop :=
  ∃ id p, b.objectId name = .ok id ∧ b.sketch.point id = .ok p

theorem objectId_eq_ok_iff {id : ObjectId} : b.objectId name = .ok id ↔
    ∃ o, b.names.find? (fun n => n.1 == name) = some o ∧ o.2 = id := by
  unfold objectId
  cases b.names.find? fun n => n.1 == name <;> simp

/-- What is placed later takes no name away from a point. -/
theorem Places.stands (h : Places b b' new) (o : b.sketch.Ordered) (stands : Stands b name) :
    Stands b' name := by
  obtain ⟨id, p, named, point⟩ := stands
  obtain ⟨n, found, rfl⟩ := objectId_eq_ok_iff.mp named
  refine ⟨n.2, p, objectId_eq_ok_iff.mpr ⟨n, ?_, rfl⟩, h.sketch.point o point⟩
  rw [h.names, List.find?_append, found]
  rfl

/-- Points stand under the names they were placed under, if these were free. -/
theorem Places.stands_new (h : Places b b' new) (points : ∀ p ∈ new, p.kind = .point)
    (free : name ∉ b.taken) (placed : name ∈ new.map (·.name)) : Stands b' name := by
  have others : b.names.find? (fun n => n.1 == name) = none := by
    refine List.find?_eq_none.mpr fun n hn same => free ?_
    exact List.mem_append_left _ (List.mem_map.mpr ⟨n, hn, by simpa using same⟩)
  obtain ⟨p, hp, rfl⟩ := List.mem_map.mp placed
  have some : ((new.map fun p => (p.name, p.id)).find? fun n => n.1 == p.name).isSome := by
    rw [List.find?_isSome]
    exact ⟨(p.name, p.id), List.mem_map_of_mem hp, by simp⟩
  obtain ⟨n, found⟩ := Option.isSome_iff_exists.mp some
  obtain ⟨q, hq, rfl⟩ := List.mem_map.mp (List.mem_of_find?_eq_some found)
  obtain ⟨x, point⟩ := h.points q hq (points q hq)
  refine ⟨q.id, x, objectId_eq_ok_iff.mpr ⟨(q.name, q.id), ?_, rfl⟩, point⟩
  rw [h.names, List.find?_append, others]
  exact found

/-- The parts of a row are placed, or those before the first whose name is taken. -/
def Builds (parts : List (ShapeKind × String)) (b : Workbench K) :
    Except WorkbenchError α × Workbench K → Prop :=
  Ends
    (fun _ t => ∃ new, new.map NamedObject.label = parts ∧ Places b t new ∧
      ∀ p ∈ parts, p.2 ∉ b.taken)
    (fun e t => ∃ new part rest, new.map NamedObject.label ++ part :: rest = parts ∧
      Places b t new ∧ (∀ p ∈ new, p.name ∉ b.taken) ∧ part.2 ∈ t.taken ∧
      e = .duplicateName part.2)

variable {parts rest : List (ShapeKind × String)}

theorem builds_nil (a : α) (b : Workbench K) : Builds [] b (.ok a, b) :=
  ⟨[], rfl, .refl b, by simp⟩

theorem Builds.bind {m : Action K α} {f : α → Action K β} (o : b.sketch.Ordered)
    (first : Builds parts b (outcome m b))
    (second : ∀ a t new, new.map NamedObject.label = parts → Places b t new →
      (∀ p ∈ parts, p.2 ∉ b.taken) → Builds rest t (outcome (f a) t)) :
    Builds (parts ++ rest) b (outcome (m >>= f) b) := by
  refine Ends.bind first (fun a t ⟨new, labels, places, free⟩ => ?_)
    fun e t ⟨new, part, later, labels, places, free, taken, duplicate⟩ => ?_
  · have older : ∀ n, n ∉ t.taken → n ∉ b.taken :=
      fun n fresh old => fresh (places.mem_taken.mpr (.inl old))
    refine Ends.imp (second a t new labels places free)
      (fun c u ⟨more, labels', places', free'⟩ => ?_)
      fun e u ⟨more, part, later, labels', places', free', taken, duplicate⟩ => ?_
    · refine ⟨new ++ more, by rw [List.map_append, labels, labels'], places.trans places' o, ?_⟩
      exact List.forall_mem_append.mpr ⟨free, fun p hp => older p.2 (free' p hp)⟩
    · refine ⟨new ++ more, part, later, ?_, places.trans places' o, ?_, taken, duplicate⟩
      · rw [List.map_append, List.append_assoc, labels, labels']
      · refine List.forall_mem_append.mpr ⟨fun p hp => ?_, fun p hp => older p.name (free' p hp)⟩
        exact free p.label (labels ▸ List.mem_map_of_mem hp)
  · exact ⟨new, part, later ++ rest, by rw [← labels]; simp, places, free, taken, duplicate⟩

/-- A row of different names fails at the first of them that was taken, and what comes before it
stays. -/
theorem Builds.stops {e : WorkbenchError} {t : Workbench K}
    (halted : Builds (α := α) parts b (.error e, t)) (distinct : (parts.map Prod.snd).Nodup) :
    ∃ new part rest, new.map NamedObject.label ++ part :: rest = parts ∧ Places b t new ∧
      (∀ p ∈ new, p.name ∉ b.taken) ∧ part.2 ∈ b.taken ∧ e = .duplicateName part.2 := by
  obtain ⟨new, part, rest, labels, places, free, taken, duplicate⟩ := halted
  refine ⟨new, part, rest, labels, places, free, ?_, duplicate⟩
  refine (places.mem_taken.mp taken).resolve_right fun again => ?_
  rw [← labels, List.map_append, List.map_map, List.nodup_append] at distinct
  exact distinct.2.2 part.2 again part.2 List.mem_cons_self rfl

/-- A step that looks whether its name is free. -/
theorem Builds.checked {kind : ShapeKind} {f : Unit → Action K α}
    (placed : name ∉ b.taken → Builds [(kind, name)] b (outcome (f ()) b)) :
    Builds [(kind, name)] b (outcome (ask (·.checkFree name) >>= f) b) := by
  refine ask_bind_of (P := Builds _ b) (fun _ free => placed (checkFree_eq_ok.mp free))
    fun e refused => ?_
  have used : name ∈ b.taken := by
    by_contra free
    cases (checkFree_eq_ok.mpr free).symm.trans refused
  have duplicate : e = .duplicateName name := by
    unfold checkFree at refused
    split at refused <;> cases refused
    rfl
  exact ⟨[], (kind, name), [], rfl, .refl b, by simp, used, duplicate⟩

/-- The object that was drawn is registered under its name. -/
theorem builds_register {kind : ShapeKind} {s : Sketch K} {id : ObjectId} (free : name ∉ b.taken)
    (drawn : Drawn b.sketch s) (last : ∃ e, s.entities = b.sketch.entities ++ [e] ∧ e.id = id)
    (point : kind = .point → ∃ q, s.point id = .ok q) :
    Builds [(kind, name)] b (outcome (register name kind id) { b with sketch := s }) := by
  obtain ⟨e, drawn', rfl⟩ := last
  exact ⟨[⟨kind, name, e.id⟩], rfl,
    ⟨drawn, ⟨[e], drawn', rfl⟩, rfl, rfl, rfl, rfl, by simpa using point⟩, by simpa using free⟩

theorem builds_point (v : Vec K) (o : b.sketch.Ordered) :
    Builds [(.point, name)] b (outcome (point name v) b) := by
  refine .checked fun free => ?_
  rw [outcome_bind_ok (outcome_onSketch _ b)]
  obtain ⟨drawn, placed⟩ := Sketch.drawn_addPoint v o
  exact builds_register free drawn ⟨_, rfl, rfl⟩ fun _ => placed

theorem Builds.discard {m : Action K α} (h : Builds parts b (outcome m b)) :
    Builds parts b (outcome (discard m) b) :=
  Ends.bind h (fun _ _ built => built) fun _ _ halted => halted

section Rows

variable {I : Workbench K → Prop} {label : α → ShapeKind × String} {as : List α}
  (ordered : ∀ {b : Workbench K}, I b → b.sketch.Ordered)
  (keeps : ∀ {b b' : Workbench K} {new}, I b → Places b b' new → I b')

include ordered keeps

theorem builds_mapM {f : α → Action K β}
    (step : ∀ a ∈ as, ∀ b, I b → Builds [label a] b (outcome (f a) b)) (start : I b) :
    Builds (as.map label) b (outcome (as.mapM f) b) := by
  induction as generalizing b with
  | nil => exact builds_nil [] b
  | cons a as ih =>
    rw [List.mapM_cons]
    have first := step a List.mem_cons_self b start
    refine first.bind (ordered start) fun x t new _ places _ => ?_
    have others := ih (fun c hc => step c (List.mem_cons_of_mem a hc)) (keeps start places)
    exact Ends.bind others (fun _ _ built => built) fun _ _ halted => halted

theorem builds_forM {f : α → Action K Unit}
    (step : ∀ a ∈ as, ∀ b, I b → Builds [label a] b (outcome (f a) b)) (start : I b) :
    Builds (as.map label) b (outcome (as.forM f) b) := by
  induction as generalizing b with
  | nil => exact builds_nil () b
  | cons a as ih =>
    have first := step a List.mem_cons_self b start
    refine first.bind (ordered start) fun x t new _ places _ => ?_
    exact ih (fun c hc => step c (List.mem_cons_of_mem a hc)) (keeps start places)

end Rows

def corners (name : String) : List (ShapeKind × String) :=
  (List.range 4).map fun i => (.point, s!"{name}.p{i}")

def sides (name : String) : List (ShapeKind × String) :=
  (List.range 4).map fun i => (.segment, s!"{name}.s{i}")

/-- All eight names differ. -/
theorem nodup_names (name : String) : ((corners name ++ sides name).map Prod.snd).Nodup := by
  have corner (i : Nat) : s!"{name}.p{i}" = name ++ s!".p{i}" := String.append_assoc ..
  have side (i : Nat) : s!"{name}.s{i}" = name ++ s!".s{i}" := String.append_assoc ..
  have same : (corners name ++ sides name).map Prod.snd =
      ((List.range 4).map (fun i => s!".p{i}") ++ (List.range 4).map (fun i => s!".s{i}")).map
        (name ++ ·) := by
    rw [corners, sides, List.map_append, List.map_append, List.map_map, List.map_map, List.map_map,
      List.map_map]
    exact congrArg₂ (· ++ ·) (List.map_congr_left fun i _ => corner i)
      (List.map_congr_left fun i _ => side i)
  rw [same]
  exact List.Nodup.map (fun s t h => (String.append_right_inj name).mp h) (by decide +kernel)

variable [Scalar K]

/-- A side is placed where its ends stand under their names. -/
theorem builds_segmentBetween {x y : String} (start : Stands b x) (finish : Stands b y) :
    Builds [(.segment, name)] b (outcome (segmentBetween name x y) b) := by
  obtain ⟨i, p, named, hp⟩ := start
  obtain ⟨j, q, named', hq⟩ := finish
  have across : b.sketch.step i j = .ok _ :=
    bind_eq_ok.mpr ⟨_, Sketch.position_of_point hq,
      bind_eq_ok.mpr ⟨_, Sketch.position_of_point hp, rfl⟩⟩
  have looked : (b.sketch.step i j).mapError WorkbenchError.sketch = .ok _ :=
    mapError_eq_ok.mpr across
  refine .checked fun free => ?_
  rw [outcome_bind_ok ((outcome_ask _ b).trans (congrArg (·, b) named)),
    outcome_bind_ok ((outcome_ask _ b).trans (congrArg (·, b) named')),
    outcome_bind_ok ((outcome_ask _ b).trans (congrArg (·, b) looked)),
    outcome_bind_ok (outcome_onSketch _ b)]
  exact builds_register free (Sketch.drawn_addSegmentOver hp hq _) ⟨_, rfl, rfl⟩ nofun

/-- A rectangle is a row of four corners and then four sides, which find the corners by name. -/
theorem builds_rect (x y w h : K) (o : b.sketch.Ordered) :
    Builds (corners name ++ sides name) b (outcome (rect name x y w h) b) := by
  have listed : corners name = (rectangle x y w h).zipIdx.map
      fun corner => (.point, s!"{name}.p{corner.2}") := rfl
  rw [listed]
  refine Builds.bind o (builds_forM (I := fun b => b.sketch.Ordered) id
    (fun o places => places.ordered o) (fun corner _ b o => (builds_point corner.1 o).discard) o)
    fun _ t new labels places free => ?_
  rw [← listed] at labels free
  have points : ∀ p ∈ new, p.kind = .point := by
    intro p hp
    have corner : p.label ∈ corners name := labels ▸ List.mem_map_of_mem hp
    obtain ⟨i, -, same⟩ := List.mem_map.mp corner
    exact (congrArg Prod.fst same).symm
  have standing : ∀ i < 4, Stands t s!"{name}.p{i}" := by
    intro i hi
    have corner : (.point, s!"{name}.p{i}") ∈ corners name :=
      List.mem_map_of_mem (List.mem_range.mpr hi)
    refine places.stands_new points (free _ corner) ?_
    obtain ⟨p, hp, same⟩ := List.mem_map.mp (labels ▸ corner)
    exact List.mem_map.mpr ⟨p, hp, congrArg Prod.snd same⟩
  refine builds_mapM (I := fun b => b.sketch.Ordered ∧ ∀ i < 4, Stands b s!"{name}.p{i}")
    And.left (fun kept places => ⟨places.ordered kept.1, fun i hi => places.stands kept.1
      (kept.2 i hi)⟩) (fun i hi b kept => ?_) ⟨places.ordered o, standing⟩
  exact builds_segmentBetween (kept.2 i (List.mem_range.mp hi))
    (kept.2 ((i + 1) % 4) (Nat.mod_lt _ (by decide)))

end Workbench

end Drafting
