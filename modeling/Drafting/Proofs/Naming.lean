import Drafting.Double
import Drafting.Proofs.Upholding
import Mathlib.Data.List.Induction
import Mathlib.Data.List.Infix

namespace Drafting

variable {K α β : Type}

namespace Workbench

variable {b b' b'' : Workbench K} {name : String}

/-- The names in use, those of objects first. -/
def taken (b : Workbench K) : List String :=
  b.names.map (·.1) ++ b.constraints.map (·.name)

/-- No name is given twice, be it to an object or to a constraint. -/
structure Distinct (b : Workbench K) : Prop where
  objects : (b.names.map (·.1)).Nodup
  constraints : (b.constraints.map (·.name)).Nodup
  apart : ∀ o ∈ b.names, ∀ c ∈ b.constraints, o.1 ≠ c.name

theorem distinct_iff : b.Distinct ↔ b.taken.Nodup := by
  rw [taken, List.nodup_append, List.forall_mem_map]
  simp only [List.forall_mem_map]
  exact ⟨fun d => ⟨d.objects, d.constraints, d.apart⟩, fun ⟨o, c, a⟩ => ⟨o, c, a⟩⟩

theorem checkFree_eq_ok : b.checkFree name = .ok () ↔ name ∉ b.taken := by
  have used : b.isTaken name ↔ name ∈ b.taken := by
    simp [isTaken, taken]
  rw [← used, checkFree]
  split <;> simp_all

def StaysDistinct (b b' : Workbench K) : Prop := b.Distinct → b'.Distinct

theorem StaysDistinct.refl (b : Workbench K) : StaysDistinct b b := id

theorem StaysDistinct.trans (h : StaysDistinct b b') (h' : StaysDistinct b' b'') :
    StaysDistinct b b'' := h' ∘ h

/-- Names may be given up. -/
theorem StaysDistinct.of_sublist (h : b'.taken.Sublist b.taken) : StaysDistinct b b' :=
  fun d => distinct_iff.mpr ((distinct_iff.mp d).sublist h)

theorem SameLists.taken (h : SameLists b b') : b'.taken = b.taken := by
  rw [Workbench.taken, h.1, h.2, Workbench.taken]

theorem SameLists.staysDistinct (h : SameLists b b') : StaysDistinct b b' :=
  .of_sublist (h.taken ▸ .refl _)

theorem staysDistinct_ask (f : Workbench K → Except WorkbenchError α) :
    Leads StaysDistinct (ask f) := leads_ask StaysDistinct.refl f

def Takes (name : String) (b b' : Workbench K) : Prop := name ∉ b.taken → StaysDistinct b b'

theorem takes_bind {m : Action K α} {f : α → Action K β} (hm : Leads SameLists m)
    (hf : ∀ a, Leads (Takes name) (f a)) : Leads (Takes name) (m >>= f) := by
  intro b free
  have same := hm b
  refine outcome_bind_of (P := fun r => StaysDistinct b r.2) (fun a t h => ?_) (fun e t h => ?_)
  · rw [h] at same
    exact same.staysDistinct.trans (hf a t (same.taken ▸ free))
  · rw [h] at same
    exact same.staysDistinct

/-- A name is taken after a look whether it is free. -/
theorem staysDistinct_checked {f : Unit → Action K α} (h : ∀ a, Leads (Takes name) (f a)) :
    Leads StaysDistinct (ask (·.checkFree name) >>= f) := by
  intro b
  refine ask_bind_of (P := fun r => StaysDistinct b r.2) (fun a free => ?_) fun _ _ => .refl b
  exact h a b (checkFree_eq_ok.mp free)

theorem outcome_register (name : String) (kind : ShapeKind) (id : ObjectId) (b : Workbench K) :
    outcome (register name kind id) b = (.ok id,
      { b with
        names := b.names ++ [(name, id)]
        history := b.history ++ [.added kind name id] }) := rfl

theorem takes_register (name : String) (kind : ShapeKind) (id : ObjectId) :
    Leads (Takes (K := K) name) (register name kind id) := by
  intro b free d
  have used : (outcome (register name kind id) b).2.taken =
      b.names.map (·.1) ++ name :: b.constraints.map (·.name) := by
    simp [taken, outcome_register]
  rw [distinct_iff, used, List.perm_middle.nodup_iff, List.nodup_cons]
  exact ⟨free, distinct_iff.mp d⟩

theorem staysDistinct_draw (name : String) (kind : ShapeKind) (m : StateM (Sketch K) ObjectId) :
    Leads StaysDistinct (draw name kind m) :=
  staysDistinct_checked fun _ => takes_bind (sameLists_onSketch m) (takes_register name kind)

theorem staysDistinct_nameObject (name : String) (id : ObjectId) :
    Leads (StaysDistinct (K := K)) (nameObject name id) :=
  staysDistinct_checked fun _ => takes_bind (sameLists_ask _) fun kind =>
    (takes_register name kind id).discard

variable [Scalar K]

theorem staysDistinct_segmentBetween (name x y : String) :
    Leads (StaysDistinct (K := K)) (segmentBetween name x y) :=
  staysDistinct_checked fun _ => takes_bind (sameLists_ask _) fun _ =>
    takes_bind (sameLists_ask _) fun _ => takes_bind (sameLists_ask _) fun _ =>
      takes_bind (sameLists_onSketch _) (takes_register name .segment)

/-- A rectangle looks each of its eight names up by itself. -/
theorem staysDistinct_rect (name : String) (x y w h : K) :
    Leads StaysDistinct (rect name x y w h) := by
  refine Leads.bind (R := StaysDistinct) StaysDistinct.trans ?_ fun _ => ?_
  · refine Leads.forM (R := StaysDistinct) StaysDistinct.refl StaysDistinct.trans fun corner _ => ?_
    exact (staysDistinct_draw _ _ _).discard
  · refine Leads.mapM (R := StaysDistinct) StaysDistinct.refl StaysDistinct.trans fun i _ => ?_
    exact staysDistinct_segmentBetween _ _ _

section Constraints

variable [Written K]

theorem takes_push (name : String) (c : Constraint K) : Leads (Takes name) (push name c) := by
  intro b free d
  obtain ⟨names, same | added⟩ := lists_push name c b
  · exact SameLists.staysDistinct ⟨names, same⟩ d
  · have used : (outcome (push name c) b).2.taken = b.taken ++ [name] := by
      simp [taken, names, added]
    rw [distinct_iff, used, List.nodup_append_comm, List.singleton_append, List.nodup_cons]
    exact ⟨free, distinct_iff.mp d⟩

theorem staysDistinct_made (name : String) (objects : List String)
    (m : List ObjectId → Sketch.Edit K ConstraintError (Constraint K)) :
    Leads StaysDistinct (ask (·.checkFree name) >>= fun _ =>
      (objects.mapM fun n => ask (·.objectId n)) >>= fun ids =>
        editSketch .constraint (m ids) >>= push name) := by
  refine staysDistinct_checked fun _ => takes_bind ?_ fun ids =>
    takes_bind (sameLists_editSketch _ _) (takes_push name)
  exact Leads.mapM (R := SameLists) SameLists.refl SameLists.trans fun n _ => sameLists_ask _

theorem staysDistinct_consistency (name object : String) :
    Leads (StaysDistinct (K := K)) (consistency name object) := by
  refine staysDistinct_checked fun _ => takes_bind (sameLists_ask _) fun id =>
    takes_bind (sameLists_editSketch _ _) fun made => ?_
  cases made with
  | some c => exact takes_push name c
  | none => exact fun b _ => .refl b

omit [Scalar K] [Written K] in
theorem names_replaceFirst (name : String) (f : Constraint K → Constraint K)
    (cs : List (NamedConstraint K)) :
    (replaceFirst name f cs).map (·.name) = cs.map (·.name) := by
  induction cs with
  | nil => rfl
  | cons c cs ih =>
    unfold replaceFirst
    split
    · rfl
    · rw [List.map_cons, List.map_cons, ih]

omit [Scalar K] [Written K] in
/-- A constraint that is replaced leaves its name to the new one. -/
theorem staysDistinct_replaced (name : String) (f : Constraint K → Constraint K) (e : Event)
    (b : Workbench K) : StaysDistinct b (outcome
      (modify (fun b => { b with constraints := replaceFirst name f b.constraints }) >>= fun _ =>
        log e) b).2 := by
  refine .of_sublist ?_
  rw [outcome_bind_ok (outcome_modify _ b), outcome_log, taken, names_replaceFirst]
  exact .refl _

omit [Scalar K] [Written K] in
theorem staysDistinct_setConstant (name constant : String) (value : Constant.Raw K) :
    Leads StaysDistinct (setConstant name constant value) :=
  Leads.bind (R := StaysDistinct) StaysDistinct.trans (staysDistinct_ask _).discard fun _ =>
    staysDistinct_replaced name _ _

theorem staysDistinct_resync (name : String) :
    Leads (StaysDistinct (K := K)) (resync name) :=
  Leads.bind (R := StaysDistinct) StaysDistinct.trans (staysDistinct_ask _) fun _ =>
    Leads.bind (R := StaysDistinct) StaysDistinct.trans (staysDistinct_ask _) fun _ =>
      staysDistinct_replaced name _ _

omit [Scalar K] [Written K] in
theorem staysDistinct_remove (name : String) :
    Leads (StaysDistinct (K := K)) (remove name) := by
  refine Leads.bind (R := StaysDistinct) StaysDistinct.trans (staysDistinct_ask _) fun c b => ?_
  refine .of_sublist ((List.Sublist.refl _).append ?_)
  exact List.eraseP_sublist.map _

omit [Written K] in
/-- What is read has the names of the text. -/
theorem names_readAll {s t : Sketch K} {saved : List (SavedConstraint K)}
    {made loaded : List (NamedConstraint K)}
    (h : outcome (readAll made saved) s = (.ok loaded, t)) :
    loaded.map (·.name) = made.map (·.name) ++ saved.map (·.name) := by
  induction saved generalizing made s with
  | nil =>
    cases h
    exact (List.append_nil _).symm
  | cons first rest ih =>
    rw [outcome_readAll_cons] at h
    split at h
    · rw [ih h]
      simp
    · cases h

/-- The names of the objects, and of the constraints, after a text was loaded. -/
theorem names_load (text : String) (b : Workbench K) :
    Ends (fun _ b' => b'.names = b.names ∧ ∃ saved, readSaved? (K := K) text = some saved ∧
        b'.constraints.map (·.name) = saved.map (·.name))
      (fun _ b' => SameLists b b') (outcome (load text) b) := by
  cases parsed : readSaved? (K := K) text with
  | none =>
    rw [load_of_unreadable b parsed]
    exact .refl b
  | some saved =>
    rw [outcome_load b parsed]
    cases run : outcome (readAll [] saved) (stepAside b.constraints b.sketch) with
    | mk answer u =>
      cases answer with
      | ok loaded => exact ⟨rfl, saved, rfl, names_readAll run⟩
      | error e =>
        -- whether the old marks can be put back does not matter here
        have same := sameLists_editSketch .sketch (stepBack b.constraints) { b with sketch := u }
        refine outcome_bind_of (P := Ends _ _) (fun _ v stepped => ?_) fun _ v stepped => ?_
        · rwa [stepped] at same
        · rwa [stepped] at same

/-- If the text is accepted, the names that it brings differ from each other and from those of the
objects. -/
def Fits (b : Workbench K) (text : String) : Prop :=
  (outcome (load text) b).1 = .ok () → ∀ saved, readSaved? (K := K) text = some saved →
    (saved.map (·.name)).Nodup ∧ ∀ o ∈ b.names, ∀ s ∈ saved, o.1 ≠ s.name

/-- Loading keeps names distinct just where the text fits. -/
theorem distinct_load_iff (d : b.Distinct) (text : String) :
    (outcome (load text) b).2.Distinct ↔ b.Fits text := by
  have ends := names_load text b
  unfold Fits
  cases run : outcome (load text) b with
  | mk answer b' =>
    rw [run] at ends
    cases answer with
    | ok u =>
      obtain ⟨names, saved, parsed, constraints⟩ := ends
      have used : b'.taken = b.names.map (·.1) ++ saved.map (·.name) := by
        rw [taken, names, constraints]
      rw [distinct_iff, used, List.nodup_append, parsed]
      simp [d.objects]
    | error e =>
      simp [ends.staysDistinct d]

omit [Scalar K] [Written K] in
theorem replaceFirst_append {n : NamedConstraint K} {l r : List (NamedConstraint K)}
    (f : Constraint K → Constraint K) (others : ∀ m ∈ l, m.name ≠ n.name) :
    replaceFirst n.name f (l ++ n :: r) = l ++ { n with constraint := f n.constraint } :: r := by
  induction l with
  | nil => simp [replaceFirst]
  | cons m l ih =>
    obtain ⟨other, others⟩ := List.forall_mem_cons.mp others
    simp [replaceFirst, other, ih others]

/-- Nothing else has the name of `n`, which is listed between `l` and `r`, and what is asked of that
name is done with `n` alone. -/
structure Answers (b : Workbench K) (l : List (NamedConstraint K)) (n : NamedConstraint K)
    (r : List (NamedConstraint K)) : Prop where
  alone : n.name ∉ b.names.map (·.1) ++ (l ++ r).map (·.name)
  found : b.constraint n.name = .ok n.constraint
  setConstant : ∀ constant value, outcome (setConstant n.name constant value) b = (.ok (),
    { b with
      constraints := l ++ { n with constraint := n.constraint.setConstant constant value } :: r
      history := b.history ++ [.constantSet n.name constant] })
  resync : outcome (resync n.name) b =
    match n.constraint.resync b.sketch with
    | .ok c => (.ok (),
      { b with
        constraints := l ++ { n with constraint := c } :: r
        history := b.history ++ [.resynced n.name] })
    | .error e => (.error (.constraint e), b)
  remove : outcome (remove n.name) b = (.ok (),
    { b with
      sketch := n.constraint.release b.sketch
      constraints := l ++ r
      history := b.history ++ [.removed n.name] })
  check : ∀ tol, outcome (check n.name tol) b =
    (.ok ((Audit.runAll n.constraint tol).run b.sketch).1,
      { b with sketch := ((Audit.runAll n.constraint tol).run b.sketch).2 })

/-- The first constraint of a name is the only one, and no object has that name. -/
theorem Distinct.answers (d : b.Distinct) {n : NamedConstraint K} {l r : List (NamedConstraint K)}
    (listed : b.constraints = l ++ n :: r) : b.Answers l n r := by
  have alone : n.name ∉ b.names.map (·.1) ++ (l ++ r).map (·.name) := by
    have used : b.taken.Perm (n.name :: (b.names.map (·.1) ++ (l ++ r).map (·.name))) := by
      simp only [taken, listed, List.map_append, List.map_cons, ← List.append_assoc]
      exact List.perm_middle
    exact (List.nodup_cons.mp (used.nodup_iff.mp (distinct_iff.mp d))).1
  have others : ∀ m ∈ l, m.name ≠ n.name := by
    intro m hm same
    refine alone (List.mem_append_right _ (List.mem_map.mpr ⟨m, ?_, same⟩))
    exact List.mem_append_left _ hm
  have named : b.named n.name = .ok n := by
    refine named_eq_ok_iff.mpr (List.find?_eq_some_iff_append.mpr ⟨by simp, l, r, listed, ?_⟩)
    simpa using others
  have found : b.constraint n.name = .ok n.constraint := by
    rw [constraint, named]
    rfl
  have asked : outcome (ask (·.constraint n.name)) b = (.ok n.constraint, b) := by
    rw [outcome_ask, found]
  refine ⟨alone, found, fun constant value => ?_, ?_, ?_, fun tol => ?_⟩
  · have known : outcome (discard (ask (·.named n.name))) b = (.ok (), b) :=
      outcome_discard_eq_ok.mpr ⟨n, by rw [outcome_ask, named]⟩
    unfold setConstant
    rw [outcome_bind_ok known, outcome_bind_ok (outcome_modify _ b), outcome_log, listed,
      replaceFirst_append _ others]
  · unfold resync
    rw [outcome_bind_ok asked, outcome_bind, outcome_ask]
    cases n.constraint.resync b.sketch with
    | ok c =>
      simp only [Except.mapError]
      rw [outcome_bind_ok (outcome_modify _ b), outcome_log, listed, replaceFirst_append _ others]
    | error e => rfl
  · have erased : b.constraints.eraseP (fun m => m.name == n.name) = l ++ r := by
      rw [listed, List.eraseP_append_right]
      · simp
      · simpa using others
    unfold remove
    rw [outcome_bind_ok asked, outcome_bind_ok (outcome_modify _ b), outcome_log, erased]
  · unfold check
    rw [outcome_bind_ok asked, outcome_onSketch]

end Constraints

end Workbench

/-- An operation of a workbench, or something that is done to its sketch from outside. -/
inductive Interaction (K : Type) where
  | operation (op : Operation K)
  | edit (f : Sketch K → Sketch K)

section Sessions

variable [Scalar K] [Written K]

def Interaction.run (b : Workbench K) : Interaction K → Workbench K
  | .operation op => op.run b
  | .edit f => { b with sketch := f b.sketch }

namespace Workbench

variable {b : Workbench K}

/-- Every operation but loading keeps names distinct. -/
theorem staysDistinct_run (op : Operation K) (fits : ∀ text, op = .load text → b.Fits text) :
    StaysDistinct b (op.run b) := by
  cases op with
  | point name v => exact staysDistinct_draw name .point _ b
  | segment name start finish => exact staysDistinct_draw name .segment _ b
  | segmentBetween name x y => exact staysDistinct_segmentBetween name x y b
  | circle name center r => exact staysDistinct_draw name .circle _ b
  | arc name center r ang1 ang2 => exact staysDistinct_draw name .arc _ b
  | ellipse name ep1 ep2 r => exact staysDistinct_draw name .ellipse _ b
  | bezier name p0 p1 p2 p3 => exact staysDistinct_draw name .bezier _ b
  | rect name x y w h => exact staysDistinct_rect name x y w h b
  | nameObject name id => exact staysDistinct_nameObject name id b
  | constrain name kind objects =>
    exact staysDistinct_made name objects (Constraint.create kind) b
  | constrainWith name kind objects constants =>
    exact staysDistinct_made name objects (Constraint.make kind · constants .standard) b
  | consistency name object => exact staysDistinct_consistency name object b
  | setConstant name constant value => exact staysDistinct_setConstant name constant value b
  | resync name => exact staysDistinct_resync name b
  | remove name => exact staysDistinct_remove name b
  | load text => exact fun d => (distinct_load_iff d text).mpr (fits text rfl)
  | movePoint name v => exact (sameLists_movePoint name v b).staysDistinct
  | applyModifiers => exact (sameLists_applyModifiers b).staysDistinct
  | check name tol => exact (sameLists_check name tol b).staysDistinct
  | autoCheck => exact SameLists.staysDistinct ⟨rfl, rfl⟩
  | setValue h x => exact SameLists.staysDistinct ⟨rfl, rfl⟩
  | checkAll tol => exact SameLists.staysDistinct ⟨rfl, rfl⟩
  | report tol => exact SameLists.staysDistinct ⟨rfl, rfl⟩

/-- The workbench after a session in which the sketch may be worked on from outside. -/
def reached (is : List (Interaction K)) : Workbench K := is.foldl Interaction.run (empty false)

theorem reached_concat (is : List (Interaction K)) (i : Interaction K) :
    reached (is ++ [i]) = i.run (reached is) := List.foldl_append

/-- Names are distinct where all texts fit that were loaded. -/
theorem distinct_reached {is : List (Interaction K)}
    (fits : ∀ past text, past ++ [.operation (.load text)] <+: is → (reached past).Fits text) :
    (reached is).Distinct := by
  induction is using List.reverseRecOn with
  | nil => exact ⟨by simp [reached, empty], by simp [reached, empty], by simp [reached, empty]⟩
  | append_singleton is i ih =>
    have before := ih fun past text h => fits past text (h.trans (List.prefix_append _ _))
    rw [reached_concat]
    cases i with
    | operation op =>
      refine staysDistinct_run op (fun text same => ?_) before
      exact fits is text (same ▸ List.prefix_rfl)
    | edit f => exact SameLists.staysDistinct (b := reached is) ⟨rfl, rfl⟩ before

/-- In a session, names are distinct all the time just where each text that is loaded fits; and
while they are, what is asked of the name of a constraint is done with that constraint alone. -/
theorem names_distinct (is : List (Interaction K)) :
    ((∀ past, past <+: is → (reached past).Distinct) ↔
      ∀ past text, past ++ [.operation (.load text)] <+: is → (reached past).Fits text) ∧
    ((reached is).Distinct → ∀ l n r, (reached is).constraints = l ++ n :: r →
      (reached is).Answers l n r) := by
  refine ⟨⟨fun distinct past text h => ?_, fun fits past h => ?_⟩, fun d l n r => d.answers⟩
  · have loaded := distinct _ h
    rw [reached_concat] at loaded
    exact (distinct_load_iff (distinct past ((List.prefix_append _ _).trans h)) text).mp loaded
  · exact distinct_reached fun past' text h' => fits past' text (h'.trans h)

/-- A session in which nothing is done from outside. -/
theorem reached_operations (ops : List (Operation K)) :
    reached (ops.map .operation) = after ops := List.foldl_map

end Workbench

end Sessions

namespace Workbench

def joined : List (Operation Float) :=
  [.point "p" ⟨0, 0⟩, .point "q" ⟨0, 0⟩, .constrain "d" .pCoincident ["p", "q"]]

/-- Two points are to coincide; that is saved and loaded, and a second constraint is added. -/
def kept : List (Operation Float) :=
  joined ++ [.load (after joined).save, .constrain "e" .pCoincident ["p", "q"]]

/-- The text fits, and removing the first constraint leaves the second. -/
theorem names_distinct_kept :
    (after joined).Fits (after joined).save ∧
      (outcome (remove "d") (after kept)).2.constraints.map (·.name) = ["e"] := by
  obtain ⟨all, answers⟩ := names_distinct (kept.map .operation)
  have distinct : ∀ past, past <+: kept.map .operation → (reached past).Distinct := by
    have inits : ∀ past ∈ (kept.map .operation).inits, (reached past).taken.Nodup := by
      decide +kernel
    exact fun past h => distinct_iff.mpr (inits past ((List.mem_inits past _).mpr h))
  constructor
  · rw [← reached_operations joined]
    exact all.mp distinct _ _ ⟨[.operation (.constrain "e" .pCoincident ["p", "q"])], by
      rw [reached_operations]; rfl⟩
  · have names : (reached (kept.map .operation)).constraints.map (·.name) = ["d", "e"] := by
      decide +kernel
    obtain ⟨n, rest, listed, first, others⟩ := List.map_eq_cons_iff.mp names
    have removed := (answers (distinct _ List.prefix_rfl) [] n rest listed).remove
    rw [first, reached_operations] at removed
    rw [removed]
    exact others

/-- The name of the constraint goes to a point before what was saved is loaded again. -/
def reused : List (Operation Float) :=
  joined ++ [.remove "d", .point "d" ⟨1, 1⟩, .load (after joined).save]

def doubled : List (Operation Float) :=
  joined ++ [.load ("[\x7b\"name\":\"e\",\"typeId\":\"PCoincident\",\"objects\":[1,2]\x7d,"
    ++ "\x7b\"name\":\"e\",\"typeId\":\"PCoincident\",\"objects\":[1,2]\x7d]")]

/-- Loading does not ask whether names are free. -/
theorem names_distinct_loaded :
    (¬∀ ops : List (Operation Float), ((after ops).constraints.map (·.name)).Nodup) ∧
      ¬∀ ops : List (Operation Float), ∀ o ∈ (after ops).names, ∀ c ∈ (after ops).constraints,
        o.1 ≠ c.name := by
  constructor
  · exact fun distinct => absurd (distinct doubled) (by decide +kernel)
  · exact fun apart => absurd (apart reused) (by decide +kernel)

end Workbench

end Drafting
