import Drafting.Proofs.Inspecting
import Drafting.Proofs.Placing

namespace Drafting

variable {K α β : Type}

def WorkbenchError.isRefusal : WorkbenchError → Bool
  | .checkFailed _ _ => true
  | _ => false

namespace Workbench

variable {b b' t : Workbench K} {name : String}

theorem Same.refl (b : Workbench K) : Same b b := same_of_unchanged (.refl b.sketch)

/-- What changes nothing, and does not fail as the check does. -/
def Looks (m : Action K α) : Prop :=
  ∀ b, Ends (fun _ t => t = b) (fun e t => t = b ∧ e.isRefusal = false) (outcome m b)

theorem Looks.ask {f : Workbench K → Except WorkbenchError α}
    (plain : ∀ b e, f b = .error e → e.isRefusal = false) : Looks (ask f) := by
  intro b
  rw [outcome_ask]
  cases answer : f b with
  | ok a => rfl
  | error e => exact ⟨rfl, plain b e answer⟩

theorem Looks.bind {m : Action K α} {f : α → Action K β} (first : Looks m)
    (rest : ∀ a, Looks (f a)) : Looks (m >>= f) := by
  intro b
  refine (first b).bind (fun a t same => ?_) fun _ _ h => h
  subst same
  exact rest a t

theorem Looks.mapM {f : α → Action K β} (looks : ∀ a, Looks (f a)) (as : List α) :
    Looks (as.mapM f) := by
  induction as with
  | nil => exact fun _ => rfl
  | cons a as ih =>
    rw [List.mapM_cons]
    exact (looks a).bind fun x => ih.bind fun xs _ => rfl

theorem looks_checkFree (name : String) : Looks (K := K) (ask (·.checkFree name)) := by
  refine .ask fun b e refused => ?_
  unfold checkFree at refused
  split at refused <;> cases refused
  rfl

theorem looks_objectId (name : String) : Looks (K := K) (ask (·.objectId name)) := by
  refine .ask fun b e missing => ?_
  unfold objectId at missing
  split at missing <;> cases missing
  rfl

theorem looks_named (name : String) : Looks (K := K) (ask (·.named name)) := by
  refine .ask fun b e missing => ?_
  unfold named at missing
  split at missing <;> cases missing
  rfl

theorem looks_mapError {ε : Type} {f : ε → WorkbenchError} (plain : ∀ e, (f e).isRefusal = false)
    (g : Workbench K → Except ε α) : Looks (ask fun b => (g b).mapError f) := by
  refine .ask fun b e failed => ?_
  cases answer : g b with
  | ok a =>
    rw [answer] at failed
    cases failed
  | error e' =>
    rw [answer] at failed
    cases failed
    exact plain e'

/-- Nothing is left by a failure, or that a constraint was added, if it was refused by the check. -/
def Halts (b : Workbench K) : WorkbenchError → Workbench K → Prop
  | .checkFailed _ _, t => b.autoCheck = true ∧
    ∃ name label, Same { b with history := b.history ++ [.constrained name label] } t
  | _, t => Same b t

theorem halts_of_same {e : WorkbenchError} (plain : e.isRefusal = false) (same : Same b t) :
    Halts b e t := by
  cases e with
  | checkFailed check detail => cases plain
  | _ => exact same

def Spares (b : Workbench K) : Except WorkbenchError α × Workbench K → Prop :=
  Ends (fun _ _ => True) (Halts b)

theorem Spares.bind {m : Action K α} {f : α → Action K β} (looks : Looks m)
    (rest : ∀ a, Spares b (outcome (f a) b)) : Spares b (outcome (m >>= f) b) := by
  refine (looks b).bind (fun a t same => ?_) fun e t ⟨same, plain⟩ => ?_
  · subst same
    exact rest a
  · subst same
    exact halts_of_same plain (.refl t)

theorem Spares.discard {m : Action K α} (h : Spares b (outcome m b)) :
    Spares b (outcome (discard m) b) :=
  Ends.bind h (fun _ _ _ => trivial) fun _ _ halts => halts

theorem spares_draw (name : String) (kind : ShapeKind) (m : StateM (Sketch K) ObjectId)
    (b : Workbench K) : Spares b (outcome (draw name kind m) b) :=
  .bind (looks_checkFree name) fun _ => trivial

theorem spares_nameObject (name : String) (id : ObjectId) (b : Workbench K) :
    Spares b (outcome (nameObject name id) b) :=
  .bind (looks_checkFree name) fun _ =>
    .bind (looks_mapError (fun _ => rfl) _) fun _ => trivial

theorem spares_movePoint (name : String) (v : Vec K) (b : Workbench K) :
    Spares b (outcome (movePoint name v) b) :=
  .bind (looks_objectId name) fun _ => .bind (looks_mapError (fun _ => rfl) _) fun _ => trivial

variable [Scalar K]

theorem spares_segmentBetween (name x y : String) (b : Workbench K) :
    Spares b (outcome (segmentBetween name x y) b) :=
  .bind (looks_checkFree name) fun _ => .bind (looks_objectId x) fun _ =>
    .bind (looks_objectId y) fun _ => .bind (looks_mapError (fun _ => rfl) _) fun _ => trivial

section Constraints

variable [Written K]

/-- A constraint that was made is released if the check refuses it, after the history says that it
was added. -/
theorem spares_push {c : Constraint K} {s : Sketch K} (name : String) (keyed : b.sketch.Keyed)
    (made : c.Installs b.sketch s) : Spares b (outcome (push name c) { b with sketch := s }) := by
  rw [outcome_push]
  split
  · rename_i refused
    have checked : b.autoCheck = true := (Bool.and_eq_true_iff.mp refused).1
    exact ⟨checked, name, c.label, made.release keyed, rfl, rfl, rfl, rfl⟩
  · trivial

/-- Making a constraint leaves nothing where it fails, so that only the check is left to
consider. -/
theorem spares_made {m : Sketch.Edit K ConstraintError (Constraint K)} (name : String)
    (keyed : b.sketch.Keyed) (leaves : Constraint.Leaves b.sketch (outcome m b.sketch)) :
    Spares b (outcome (editSketch .constraint m >>= push name) b) := by
  refine edit_bind_of (fun c s run => ?_) fun e s run => ?_
  · rw [run] at leaves
    exact spares_push name keyed leaves
  · rw [run] at leaves
    exact same_of_unchanged leaves

theorem spares_constrain (name : String) (kind : Kind) (objects : List String)
    (o : b.sketch.Ordered) : Spares b (outcome (constrain name kind objects) b) :=
  .bind (looks_checkFree name) fun _ => .bind (.mapM looks_objectId objects) fun ids =>
    spares_made name o.keyed (Constraint.leaves_create kind ids o)

theorem spares_constrainWith (name : String) (kind : Kind) (objects : List String)
    (constants : Table (Constant.Raw K)) (keyed : b.sketch.Keyed) :
    Spares b (outcome (constrainWith name kind objects constants) b) :=
  .bind (looks_checkFree name) fun _ => .bind (.mapM looks_objectId objects) fun ids =>
    spares_made name keyed (Constraint.leaves_make kind ids constants .standard b.sketch)

theorem spares_consistency (name object : String) (keyed : b.sketch.Keyed) :
    Spares b (outcome (consistency name object) b) := by
  refine .bind (looks_checkFree name) fun _ => .bind (looks_objectId object) fun id => ?_
  have leaves := Constraint.leavesAny_consistencyFor id b.sketch
  refine edit_bind_of (fun made s run => ?_) fun e s run => ?_
  · rw [run] at leaves
    cases made with
    | some c => exact spares_push name keyed leaves
    | none => exact same_of_unchanged leaves
  · rw [run] at leaves
    exact same_of_unchanged leaves

omit [Scalar K] [Written K] in
theorem spares_setConstant (name constant : String) (value : Constant.Raw K) (b : Workbench K) :
    Spares b (outcome (setConstant name constant value) b) :=
  .bind ((looks_named name).bind fun _ _ => rfl) fun _ => trivial

omit [Scalar K] [Written K] in
theorem looks_constraint (name : String) : Looks (K := K) (ask (·.constraint name)) := by
  refine .ask fun b e missing => ?_
  unfold constraint named at missing
  split at missing
  · cases missing
  · cases missing
    rfl

theorem spares_resync (name : String) (b : Workbench K) : Spares b (outcome (resync name) b) :=
  .bind (looks_constraint name) fun _ => .bind (looks_mapError (fun _ => rfl) _) fun _ => trivial

omit [Scalar K] [Written K] in
theorem spares_remove (name : String) (b : Workbench K) : Spares b (outcome (remove name) b) :=
  .bind (looks_constraint name) fun _ => trivial

end Constraints

variable [Written K]

/-- What a step of building does: adding and moving objects, naming them, and adding, changing and
removing constraints. -/
def build? : Operation K → Option (Action K Unit)
  | .point name v => some (discard (point name v))
  | .segment name start finish => some (discard (segment name start finish))
  | .segmentBetween name x y => some (discard (segmentBetween name x y))
  | .circle name center r => some (discard (circle name center r))
  | .arc name center r ang1 ang2 => some (discard (arc name center r ang1 ang2))
  | .ellipse name ep1 ep2 r => some (discard (ellipse name ep1 ep2 r))
  | .bezier name p0 p1 p2 p3 => some (discard (bezier name p0 p1 p2 p3))
  | .rect name x y w h => some (discard (rect name x y w h))
  | .nameObject name id => some (nameObject name id)
  | .movePoint name v => some (movePoint name v)
  | .constrain name kind objects => some (discard (constrain name kind objects))
  | .constrainWith name kind objects constants =>
    some (discard (constrainWith name kind objects constants))
  | .consistency name object => some (discard (consistency name object))
  | .setConstant name constant value => some (setConstant name constant value)
  | .resync name => some (resync name)
  | .remove name => some (remove name)
  | _ => none

variable {op : Operation K} {m : Action K Unit} {e : WorkbenchError}

/-- As part of a session it leaves just what it leaves by itself. -/
theorem run_of_build (build : build? op = some m) (b : Workbench K) :
    op.run b = (outcome m b).2 := by
  cases op <;> cases build <;> first | rfl | exact (outcome_discard _ b).symm

/-- A single step of building. -/
theorem spares_build (o : b.sketch.Ordered) (build : build? op = some m)
    (single : ¬∃ name x y w h, op = .rect name x y w h) : Spares b (outcome m b) := by
  cases op with
  | rect name x y w h => exact absurd ⟨name, x, y, w, h, rfl⟩ single
  | point | segment | circle | arc | ellipse | bezier =>
    cases build
    exact (spares_draw _ _ _ b).discard
  | segmentBetween name x y =>
    cases build
    exact (spares_segmentBetween name x y b).discard
  | nameObject name id =>
    cases build
    exact spares_nameObject name id b
  | movePoint name v =>
    cases build
    exact spares_movePoint name v b
  | constrain name kind objects =>
    cases build
    exact (spares_constrain name kind objects o).discard
  | constrainWith name kind objects constants =>
    cases build
    exact (spares_constrainWith name kind objects constants o.keyed).discard
  | consistency name object =>
    cases build
    exact (spares_consistency name object o.keyed).discard
  | setConstant name constant value =>
    cases build
    exact spares_setConstant name constant value b
  | resync name =>
    cases build
    exact spares_resync name b
  | remove name =>
    cases build
    exact spares_remove name b
  | _ => cases build

omit [Scalar K] [Written K] in
/-- A failure leaves a trace just if it is a refusal by the check. -/
theorem same_iff_of_halts (halts : Halts b e t) : Same b t ↔ e.isRefusal = false := by
  cases e with
  | checkFailed check detail =>
    obtain ⟨-, name, label, left⟩ := halts
    refine ⟨fun same => ?_, nofun⟩
    have longer := congrArg List.length (left.history.symm.trans same.history)
    simp at longer
  | _ => exact iff_of_true halts rfl

omit [Scalar K] [Written K] in
/-- Then the trace is the line of the history that says that the constraint was added. -/
theorem refused_of_halts (halts : Halts b e t) (refused : e.isRefusal = true) :
    b.autoCheck = true ∧
      ∃ name label, Same { b with history := b.history ++ [.constrained name label] } t := by
  cases e with
  | checkFailed check detail => exact halts
  | _ => cases refused

omit [Scalar K] [Written K] in
/-- A row that stops leaves the workbench as it was if it stops at once, and only then. -/
theorem same_iff_of_places {new : List NamedObject} {first part : ShapeKind × String}
    {rest later : List (ShapeKind × String)} (places : Places b t new)
    (parts : new.map NamedObject.label ++ part :: rest = first :: later)
    (free : ∀ p ∈ new, p.name ∉ b.taken) (taken : part.2 ∈ b.taken) :
    Same b t ↔ first.2 ∈ b.taken := by
  cases new with
  | nil =>
    obtain ⟨rfl, -⟩ := List.cons.inj parts
    refine iff_of_true ⟨places.sketch_of_nil ▸ .refl _, ?_, places.constraints, ?_,
      places.autoCheck⟩ taken
    · simpa using places.names
    · simpa using places.history
  | cons p ps =>
    obtain ⟨rfl, -⟩ := List.cons.inj parts
    refine iff_of_false (fun same => ?_) (free p List.mem_cons_self)
    have longer := congrArg List.length (places.names.symm.trans same.names)
    simp at longer

/-- Where a step of building fails, nothing is left of it, with two exceptions: a constraint that
the check refuses stays in the history, and of a rectangle all parts stay that come before the
first one whose name was taken. -/
theorem failed_steps (ops : List (Operation K)) (build : build? op = some m)
    (failed : outcome m (after ops) = (.error e, t)) :
    let b := after ops
    (Same b t ↔ e.isRefusal = false ∧
      ∀ name x y w h, op = .rect name x y w h → s!"{name}.p0" ∈ b.taken) ∧
    (e.isRefusal = true → b.autoCheck = true ∧
      ∃ name label, Same { b with history := b.history ++ [.constrained name label] } t) ∧
    ∀ name x y w h, op = .rect name x y w h → ∃ new part rest,
      new.map NamedObject.label ++ part :: rest = corners name ++ sides name ∧
      Places b t new ∧ (∀ p ∈ new, p.name ∉ b.taken) ∧ part.2 ∈ b.taken ∧
      e = .duplicateName part.2 := by
  intro b
  have o : b.sketch.Ordered := (sound_after ops).ordered
  by_cases rectangle : ∃ name x y w h, op = .rect name x y w h
  · obtain ⟨name, x, y, w, h, rfl⟩ := rectangle
    cases build
    have halted : Builds (corners name ++ sides name) b (outcome (discard (rect name x y w h)) b) :=
      (builds_rect x y w h o).discard
    rw [failed] at halted
    obtain ⟨new, part, rest, parts, places, free, taken, rfl⟩ := halted.stops (nodup_names name)
    refine ⟨?_, nofun, fun name' x' y' w' h' same => ?_⟩
    · have corner : s!"{name}.p{0}" = s!"{name}.p0" := String.append_assoc ..
      have first : Same b t ↔ s!"{name}.p{0}" ∈ b.taken :=
        same_iff_of_places places parts free taken
      rw [first, corner]
      exact ⟨fun first => ⟨rfl, fun _ _ _ _ _ same => (Operation.rect.inj same).1 ▸ first⟩,
        fun first => first.2 name x y w h rfl⟩
    · cases same
      exact ⟨new, part, rest, parts, places, free, taken, rfl⟩
  · have halts : Halts b e t := by
      have spares := spares_build o build rectangle
      rwa [failed] at spares
    have other : ∀ name x y w h, op ≠ .rect name x y w h :=
      fun name x y w h same => rectangle ⟨name, x, y, w, h, same⟩
    refine ⟨?_, refused_of_halts halts, fun name x y w h same => absurd same (other name x y w h)⟩
    rw [same_iff_of_halts halts]
    exact ⟨fun plain => ⟨plain, fun name x y w h same => absurd same (other name x y w h)⟩,
      And.left⟩

def hindered : List (Operation Float) :=
  [.autoCheck, .point "r.p2" ⟨5, 5⟩, .point "p" ⟨0, 0⟩, .point "q" ⟨3, 4⟩]

/-- Adds a distance that is no number. -/
def vague : Action Float Unit :=
  discard (constrainWith "d" .distancePP ["p", "q"] (.ofList [("distance", .text "five")]))

theorem exists_stopped : ∃ t, outcome (discard (rect "r" 0 0 1 1)) (after hindered) =
    (.error (.duplicateName "r.p2"), t) ∧
    t.names.map (·.1) = (after hindered).names.map (·.1) ++ ["r.p0", "r.p1"] := by
  have failed : (outcome (discard (rect "r" 0 0 1 1)) (after hindered)).1 =
      .error (.duplicateName "r.p2") := by decide +kernel
  have named : (outcome (discard (rect "r" 0 0 1 1)) (after hindered)).2.names.map (·.1) =
      (after hindered).names.map (·.1) ++ ["r.p0", "r.p1"] := by decide +kernel
  obtain ⟨t, stopped⟩ := exists_left failed
  rw [stopped] at named
  exact ⟨t, stopped, named⟩

theorem exists_refused : ∃ t, outcome vague (after hindered) =
    (.error (.checkFailed "finite_residuals" "DistancePP:0: non-finite residuals at [0]"), t) := by
  have failed : (outcome vague (after hindered)).1 = .error (.checkFailed "finite_residuals"
      "DistancePP:0: non-finite residuals at [0]") := by decide +kernel
  exact exists_left failed

/-- Two corners are drawn before the name of the third is found to be taken; the constraint is only
in the history; and a second point of a name is not there at all. -/
theorem failed_steps_hindered : ∃ t u v,
    outcome (discard (rect "r" 0 0 1 1)) (after hindered) = (.error (.duplicateName "r.p2"), t) ∧
    outcome vague (after hindered) = (.error (.checkFailed "finite_residuals"
      "DistancePP:0: non-finite residuals at [0]"), u) ∧
    outcome (discard (point "p" ⟨1, 1⟩)) (after hindered) = (.error (.duplicateName "p"), v) ∧
    ¬Same (after hindered) t ∧
    (∃ new, Places (after hindered) t new ∧ new.map (·.name) = ["r.p0", "r.p1"]) ∧
    ¬Same (after hindered) u ∧ (∃ name label, Same { after hindered with
      history := (after hindered).history ++ [.constrained name label] } u) ∧
    Same (after hindered) v := by
  obtain ⟨t, stopped, named⟩ := exists_stopped
  obtain ⟨u, refused⟩ := exists_refused
  have double : (outcome (discard (point "p" ⟨1, 1⟩)) (after hindered)).1 =
      .error (.duplicateName "p") := by decide +kernel
  obtain ⟨v, clean⟩ := exists_left double
  have drawn : build? (.rect "r" 0 0 1 1) = some (discard (rect "r" (0 : Float) 0 1 1)) := rfl
  have added : build? (.constrainWith "d" .distancePP ["p", "q"]
      (.ofList [("distance", .text "five")])) = some vague := rfl
  have placed : build? (.point "p" ⟨1, 1⟩) = some (discard (point "p" (⟨1, 1⟩ : Vec Float))) := rfl
  obtain ⟨left, -, parts⟩ := failed_steps hindered drawn stopped
  obtain ⟨noted, history, -⟩ := failed_steps hindered added refused
  obtain ⟨kept, -, -⟩ := failed_steps hindered placed clean
  refine ⟨t, u, v, stopped, refused, clean, fun same => ?_, ?_, fun same => ?_, (history rfl).2, ?_⟩
  · have taken := (left.mp same).2 "r" 0 0 1 1 rfl
    exact absurd taken (by decide +kernel)
  · obtain ⟨new, -, -, -, places, -⟩ := parts "r" 0 0 1 1 rfl
    rw [places.names, List.map_append, List.map_map] at named
    exact ⟨new, places, List.append_cancel_left named⟩
  · exact absurd (noted.mp same).1 (by decide)
  · exact kept.mpr ⟨rfl, nofun⟩

/-- A failure does leave something: objects and their names, or an entry in the history. -/
theorem failed_steps_leave :
    (¬∀ (ops : List (Operation Float)) (name : String) (x y w h : Float) (e : WorkbenchError)
      (t : Workbench Float), outcome (discard (rect name x y w h)) (after ops) = (.error e, t) →
        Same (after ops) t) ∧
    ¬∀ (ops : List (Operation Float)) (name : String) (kind : Kind) (objects : List String)
      (constants : Table (Constant.Raw Float)) (e : WorkbenchError) (t : Workbench Float),
      outcome (discard (constrainWith name kind objects constants)) (after ops) = (.error e, t) →
        Same (after ops) t := by
  constructor
  · intro clean
    obtain ⟨t, stopped, named⟩ := exists_stopped
    have same := (clean hindered "r" 0 0 1 1 _ t stopped).names
    rw [same] at named
    exact absurd (List.append_right_eq_self.mp named.symm) (by decide)
  · intro clean
    obtain ⟨t, refused⟩ := exists_refused
    have same := (clean hindered "d" .distancePP ["p", "q"] _ _ t refused).history
    have left : t = (outcome vague (after hindered)).2 := (congrArg Prod.snd refused).symm
    rw [left] at same
    exact absurd same (by decide +kernel)

end Workbench

end Drafting
