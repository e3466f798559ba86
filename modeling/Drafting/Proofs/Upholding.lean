import Drafting.Proofs.Founding

namespace Drafting.Workbench

open Constraint (Leaves)
open Sketch (Drawn)

variable {K α β : Type} {b b' : Workbench K}

theorem Upholds.bind {m : Action K α} {f : α → Action K β} (hm : Leads Upholds m)
    (hf : ∀ a, Leads Upholds (f a)) : Leads Upholds (m >>= f) :=
  Leads.bind (R := Upholds) Upholds.trans hm hf

theorem upholds_ask (f : Workbench K → Except WorkbenchError α) : Leads Upholds (ask f) :=
  leads_ask Upholds.refl f

theorem upholds_ask_bind {f : Workbench K → Except WorkbenchError α} {g : α → Action K β}
    (h : ∀ a, f b = .ok a → Upholds b (outcome (g a) b).2) :
    Upholds b (outcome (ask f >>= g) b).2 :=
  ask_bind_of (P := fun r => Upholds b r.2) h fun _ _ => .refl b

/-- A name is given to an object that was just drawn. -/
theorem upholds_drawn (name : String) (kind : ShapeKind) {m : StateM (Sketch K) ObjectId}
    (drawn : Drawn b.sketch (m.run b.sketch).2)
    (known : (m.run b.sketch).2.contains (m.run b.sketch).1) :
    Upholds b (outcome (onSketch m >>= fun id => register name kind id) b).2 := by
  intro f
  rw [outcome_bind_ok (outcome_onSketch m b)]
  have changes := (Evolves.trans (fun _ => changes_of_drawn drawn)
    (evolves_register name kind (m.run b.sketch).1 _)) f.toSound
  refine f.changes changes (fun n hn => ?_) (fun n hn => .inl hn)
  rcases List.mem_append.mp hn with hn | hn
  · exact .inl hn
  · obtain rfl := List.mem_singleton.mp hn
    exact .inr known

theorem upholds_draw (name : String) (kind : ShapeKind) {m : StateM (Sketch K) ObjectId}
    (drawn : ∀ s : Sketch K, s.Ordered → Drawn s (m.run s).2)
    (known : ∀ s : Sketch K, (m.run s).2.contains (m.run s).1) :
    Leads Upholds (draw name kind m) := by
  refine Upholds.bind (upholds_ask _) fun _ b f => ?_
  exact upholds_drawn name kind (drawn b.sketch f.ordered) (known b.sketch) f

theorem upholds_point (name : String) (v : Vec K) : Leads Upholds (point name v) :=
  upholds_draw name .point (fun _ o => (Sketch.drawn_addPoint v o).1)
    fun _ => Sketch.contains_addShape _ _

theorem upholds_nameObject (name : String) (id : ObjectId) :
    Leads (Upholds (K := K)) (nameObject name id) := by
  refine Upholds.bind (upholds_ask _) fun _ b => upholds_ask_bind fun kind found f => ?_
  rw [outcome_discard]
  refine f.changes (evolves_register name kind id b f.toSound) (fun n hn => ?_) fun n hn => .inl hn
  rcases List.mem_append.mp hn with hn | hn
  · exact .inl hn
  · obtain rfl := List.mem_singleton.mp hn
    exact .inr (Sketch.contains_of_kind (mapError_eq_ok.mp found))

variable [Scalar K]

theorem upholds_segmentBetween (name x y : String) :
    Leads (Upholds (K := K)) (segmentBetween name x y) := by
  refine Upholds.bind (upholds_ask _) fun _ => Upholds.bind (upholds_ask _) fun p =>
    Upholds.bind (upholds_ask _) fun q b => upholds_ask_bind fun d hd => ?_
  obtain ⟨⟨_, hp⟩, _, hq⟩ := Sketch.points_of_step (mapError_eq_ok.mp hd)
  exact upholds_drawn name .segment (Sketch.drawn_addSegmentOver hp hq d)
    (Sketch.contains_addShape _ _)

theorem upholds_rect (name : String) (x y w h : K) : Leads Upholds (rect name x y w h) := by
  refine Upholds.bind ?_ fun _ => ?_
  · refine Leads.forM (R := Upholds) Upholds.refl Upholds.trans fun corner _ => ?_
    exact (upholds_point _ _).discard
  · refine Leads.mapM (R := Upholds) Upholds.refl Upholds.trans fun i _ => ?_
    exact upholds_segmentBetween _ _ _

section Constraints

variable [Written K]

omit [Scalar K] [Written K] in
/-- A name that is found is in the list with its object. -/
theorem mem_of_objectId {name : String} {id : ObjectId} (h : b.objectId name = .ok id) :
    ∃ n ∈ b.names, n.2 = id := by
  unfold objectId at h
  split at h
  · rename_i n found
    cases h
    exact ⟨n, List.mem_of_find?_eq_some found, rfl⟩
  · cases h

omit [Scalar K] [Written K] in
/-- Objects that are found by their names are objects of the sketch. -/
theorem Founded.known (f : Founded b) {objects : List String} {ids : List ObjectId}
    (h : outcome (objects.mapM fun n => ask (·.objectId n)) b = (.ok ids, b')) :
    b' = b ∧ ∀ id ∈ ids, b.sketch.contains id := by
  induction objects generalizing ids b' with
  | nil =>
    cases h
    exact ⟨rfl, by simp⟩
  | cons name objects ih =>
    rw [List.mapM_cons] at h
    obtain ⟨id, u, first, h⟩ := outcome_bind_eq_ok.mp h
    rw [outcome_ask] at first
    obtain ⟨found, rfl⟩ := Prod.mk.inj first
    obtain ⟨rest, v, others, h⟩ := outcome_bind_eq_ok.mp h
    cases h
    obtain ⟨rfl, known⟩ := ih others
    obtain ⟨n, hn, rfl⟩ := mem_of_objectId found
    exact ⟨rfl, List.forall_mem_cons.mpr ⟨f.names n hn, known⟩⟩

/-- A constraint is the only one that is added, if it is. -/
theorem lists_push (name : String) (c : Constraint K) (b : Workbench K) :
    (outcome (push name c) b).2.names = b.names ∧
      ((outcome (push name c) b).2.constraints = b.constraints ∨
        (outcome (push name c) b).2.constraints = b.constraints ++ [⟨name, c⟩]) := by
  rw [outcome_push]
  split
  · exact ⟨rfl, .inl rfl⟩
  · exact ⟨rfl, .inr rfl⟩

/-- A constraint that is refused by the check leaves the list as it was. -/
theorem Founded.push (f : Founded b) (name : String) {c : Constraint K} {t : Sketch K}
    (made : c.Installs b.sketch t) (stands : c.Stands b.sketch) :
    Founded (outcome (push name c) { b with sketch := t }).2 := by
  have changes := changes_push name f.toSound made
  obtain ⟨names, constraints⟩ := lists_push name c { b with sketch := t }
  refine f.changes changes (fun n hn => .inl (names ▸ hn)) fun n hn => ?_
  rcases constraints with same | added
  · exact .inl (same ▸ hn)
  · rw [added] at hn
    rcases List.mem_append.mp hn with old | new
    · exact .inl old
    · obtain rfl := List.mem_singleton.mp new
      exact .inr (stands.keeps (changes.keeps f.toSound))

/-- A constraint that is made over a founded workbench is added to it. -/
theorem upholds_made (name : String) {m : Sketch.Edit K ConstraintError (Constraint K)}
    (leaves : ∀ s : Sketch K, s.Ordered → Leaves s (outcome m s))
    (stands : ∀ c t, outcome m b.sketch = (.ok c, t) → b.sketch.Grounded → c.Stands b.sketch) :
    Upholds b (outcome (editSketch .constraint m >>= push name) b).2 := by
  intro f
  have left := leaves b.sketch f.ordered
  refine edit_bind_of (P := fun r => Founded r.2) (fun c t run => ?_) fun e t run => ?_
  · rw [run] at left
    exact f.push name left (stands c t run f.ordered.grounded)
  · rw [run] at left
    exact Evolves.upholds (Change.evolves (.keep left rfl)) rfl rfl f

omit [Scalar K] [Written K] in
/-- What is made of named objects is made of objects of the sketch. -/
theorem upholds_named {objects : List String} {g : List ObjectId → Action K α}
    (h : ∀ b : Workbench K, ∀ ids, (∀ id ∈ ids, b.sketch.contains id) →
      Upholds b (outcome (g ids) b).2) :
    Leads Upholds ((objects.mapM fun n => ask (·.objectId n)) >>= g) := by
  intro b f
  refine outcome_bind_of (P := fun r => Founded r.2) (fun ids u found => ?_) (fun e u failed => ?_)
  · obtain ⟨rfl, known⟩ := f.known found
    exact h _ ids known f
  · have looked := Leads.mapM (R := Upholds) Upholds.refl Upholds.trans
      (fun n (_ : n ∈ objects) => upholds_ask (·.objectId n)) b f
    rwa [failed] at looked

theorem upholds_constrain (name : String) (kind : Kind) (objects : List String) :
    Leads (Upholds (K := K)) (constrain name kind objects) := by
  refine Upholds.bind (upholds_ask _) fun _ => upholds_named fun b ids known => ?_
  exact upholds_made name (fun s o => Constraint.leaves_create kind ids o)
    fun c t made g => Constraint.stands_create g known made

theorem upholds_constrainWith (name : String) (kind : Kind) (objects : List String)
    (constants : Table (Constant.Raw K)) :
    Leads Upholds (constrainWith name kind objects constants) := by
  refine Upholds.bind (upholds_ask _) fun _ => upholds_named fun b ids known => ?_
  exact upholds_made name (fun s _ => Constraint.leaves_make kind ids constants .standard s)
    fun c t made g => Constraint.stands_make g known made

theorem upholds_consistency (name object : String) :
    Leads (Upholds (K := K)) (consistency name object) := by
  refine Upholds.bind (upholds_ask _) fun _ => Upholds.bind (upholds_ask _) fun id b f => ?_
  have left := Constraint.leavesAny_consistencyFor id b.sketch
  refine edit_bind_of (P := fun r => Founded r.2) (fun made t run => ?_) fun e t run => ?_
  · rw [run] at left
    cases made with
    | some c => exact f.push name left (Constraint.stands_consistencyFor f.ordered.grounded run)
    | none => exact Evolves.upholds (Change.evolves (.keep left rfl)) rfl rfl f
  · rw [run] at left
    exact Evolves.upholds (Change.evolves (.keep left rfl)) rfl rfl f

omit [Scalar K] [Written K] in
theorem mem_replaceFirst {name : String} {f : Constraint K → Constraint K}
    {cs : List (NamedConstraint K)} {n : NamedConstraint K} (h : n ∈ replaceFirst name f cs) :
    n ∈ cs ∨ ∃ m, cs.find? (fun c => c.name == name) = some m ∧
      n = { m with constraint := f m.constraint } := by
  induction cs with
  | nil => cases h
  | cons c cs ih =>
    unfold replaceFirst at h
    split at h
    · rename_i same
      rcases List.mem_cons.mp h with rfl | h
      · exact .inr ⟨c, List.find?_cons_of_pos same, rfl⟩
      · exact .inl (List.mem_cons_of_mem c h)
    · rename_i other
      rcases List.mem_cons.mp h with rfl | h
      · exact .inl (List.mem_cons_self ..)
      · rcases ih h with old | ⟨m, hm, rfl⟩
        · exact .inl (List.mem_cons_of_mem c old)
        · exact .inr ⟨m, by simp [other, hm], rfl⟩

omit [Scalar K] [Written K] in
/-- A constraint may be given other constants. -/
theorem Founded.replaceFirst (f : Founded b) {name : String} {g : Constraint K → Constraint K}
    (h : ∀ m, b.constraints.find? (fun c => c.name == name) = some m →
      ∃ table, g m.constraint = { m.constraint with constants := table }) :
    Founded { b with constraints := replaceFirst name g b.constraints } := by
  have same : stakesOf (Workbench.replaceFirst name g b.constraints) = stakesOf b.constraints := by
    refine stakesOf_replaceFirst fun m hm => ?_
    obtain ⟨table, replaced⟩ := h m hm
    rw [replaced]
    rfl
  refine f.changes (.single (.keep (.refl _) same)) (fun n hn => .inl hn) fun n hn => ?_
  rcases mem_replaceFirst hn with old | ⟨m, hm, rfl⟩
  · exact .inl old
  · obtain ⟨table, replaced⟩ := h m hm
    rw [replaced]
    exact .inr ((f.stands m (List.mem_of_find?_eq_some hm)).withConstants table)

omit [Scalar K] [Written K] in
theorem Founded.log (f : Founded b) (e : Event) : Founded (outcome (log e) b).2 :=
  Evolves.upholds (evolves_log e b) rfl rfl f

omit [Scalar K] [Written K] in
theorem upholds_setConstant (name constant : String) (value : Constant.Raw K) :
    Leads Upholds (setConstant name constant value) := by
  refine Upholds.bind (upholds_ask _).discard fun _ b f => ?_
  rw [outcome_bind_ok (outcome_modify _ b)]
  exact (f.replaceFirst fun m _ => ⟨_, rfl⟩).log _

theorem upholds_resync (name : String) : Leads (Upholds (K := K)) (resync name) := by
  intro b
  refine upholds_ask_bind fun c hc => upholds_ask_bind fun d hd f => ?_
  obtain ⟨n, hn, hnc⟩ := bind_eq_ok.mp hc
  cases hnc
  obtain ⟨table, rfl⟩ := Constraint.resync_eq_ok (mapError_eq_ok.mp hd)
  rw [outcome_bind_ok (outcome_modify _ b)]
  refine Founded.log (f.replaceFirst fun m hm => ⟨table, ?_⟩) _
  obtain rfl := Option.some.inj (hm.symm.trans (named_eq_ok_iff.mp hn))
  rfl

omit [Scalar K] [Written K] in
theorem upholds_remove (name : String) : Leads (Upholds (K := K)) (remove name) := by
  intro b f
  have changes := evolves_remove name b f.toSound
  have kept : (outcome (remove name) b).2.names = b.names ∧
      ∀ n ∈ (outcome (remove name) b).2.constraints, n ∈ b.constraints := by
    unfold remove
    rw [outcome_bind, outcome_ask]
    cases b.constraint name with
    | ok c => exact ⟨rfl, fun n hn => List.mem_of_mem_eraseP hn⟩
    | error e => exact ⟨rfl, fun n hn => hn⟩
  exact f.changes changes (fun n hn => .inl (kept.1 ▸ hn)) fun n hn => .inl (kept.2 n hn)

/-- Names and constraints are the same. -/
def SameLists (b b' : Workbench K) : Prop :=
  b'.names = b.names ∧ b'.constraints = b.constraints

omit [Scalar K] [Written K] in
theorem SameLists.refl (b : Workbench K) : SameLists b b := ⟨rfl, rfl⟩

omit [Scalar K] [Written K] in
theorem SameLists.trans {b'' : Workbench K} (h : SameLists b b') (h' : SameLists b' b'') :
    SameLists b b'' :=
  ⟨h'.1.trans h.1, h'.2.trans h.2⟩

omit [Scalar K] [Written K] in
theorem sameLists_ask (f : Workbench K → Except WorkbenchError α) : Leads SameLists (ask f) :=
  leads_ask SameLists.refl f

omit [Scalar K] [Written K] in
theorem sameLists_onSketch (m : StateM (Sketch K) α) : Leads SameLists (onSketch m) :=
  fun _ => ⟨rfl, rfl⟩

omit [Scalar K] [Written K] in
theorem sameLists_editSketch {ε : Type} (f : ε → WorkbenchError) (m : Sketch.Edit K ε α) :
    Leads SameLists (editSketch f m) := by
  intro b
  rw [outcome_editSketch]
  exact ⟨rfl, rfl⟩

omit [Scalar K] [Written K] in
theorem sameLists_movePoint (name : String) (v : Vec K) : Leads SameLists (movePoint name v) :=
  Leads.bind (R := SameLists) SameLists.trans (sameLists_ask _) fun _ =>
    Leads.bind (R := SameLists) SameLists.trans (sameLists_ask _) fun _ _ => ⟨rfl, rfl⟩

omit [Written K] in
/-- Modifiers touch neither names nor the list of constraints. -/
theorem sameLists_applyModifiers : Leads (SameLists (K := K)) applyModifiers := by
  intro b
  unfold applyModifiers
  rw [outcome_bind_ok (outcome_get b)]
  refine Leads.bind (R := SameLists) SameLists.trans ?_ (fun _ _ => ⟨rfl, rfl⟩) b
  exact Leads.forM (R := SameLists) SameLists.refl SameLists.trans fun c _ =>
    sameLists_editSketch _ _

theorem sameLists_check (name : String) (tol : K) : Leads SameLists (check name tol) :=
  Leads.bind (R := SameLists) SameLists.trans (sameLists_ask _) fun c =>
    sameLists_onSketch (Audit.runAll c tol)

omit [Written K] in
/-- What was read stands on the sketch that it was read over. -/
theorem stands_readAll {s t u : Sketch K} {saved : List (SavedConstraint K)}
    {made loaded : List (NamedConstraint K)} (g : s.Grounded) (shapes : s.SameShapes t)
    (earlier : ∀ n ∈ made, n.constraint.Stands s)
    (h : outcome (readAll made saved) t = (.ok loaded, u)) :
    ∀ n ∈ loaded, n.constraint.Stands s := by
  induction saved generalizing made t with
  | nil =>
    cases h
    exact earlier
  | cons first rest ih =>
    rw [outcome_readAll_cons] at h
    cases read : outcome (Constraint.read first.record) t with
    | mk answer v =>
      rw [read] at h
      cases answer with
      | ok c =>
        have installs := (Constraint.leaves_read first.record t).installs read
        refine ih (shapes.trans installs.sameShapes) (fun n hn => ?_) h
        rcases List.mem_append.mp hn with hn | hn
        · exact earlier n hn
        · obtain rfl := List.mem_singleton.mp hn
          exact (Constraint.stands_read (g.sameShapes shapes) read).keeps shapes.symm.keeps
      | error e => cases h

/-- Loading replaces the list by constraints that were read over the same objects. -/
theorem upholds_load (text : String) : Leads (Upholds (K := K)) (load text) := by
  intro b f
  have changes := evolves_load text b f.toSound
  cases parsed : readSaved? (K := K) text with
  | none =>
    rw [load_of_unreadable b parsed]
    exact f
  | some saved =>
    cases run : outcome (readAll [] saved) (Workbench.stepAside b.constraints b.sketch) with
    | mk answer u =>
      cases answer with
      | ok loaded =>
        have aside := (remarked_stepAside b.constraints b.sketch).toSameShapes
        have stands := stands_readAll f.ordered.grounded aside (by simp) run
        have keeps := changes.keeps f.toSound
        simp only [outcome_load b parsed, run] at changes keeps ⊢
        exact f.changes changes (fun n hn => .inl hn) fun n hn => .inr ((stands n hn).keeps keeps)
      | error e =>
        obtain ⟨v, failed, same⟩ := load_of_error f.toSound parsed run
        rw [failed]
        exact Evolves.upholds (Change.evolves (.keep same rfl)) rfl rfl f

/-- The step of the invariant, one case for each operation. -/
theorem upholds_run (b : Workbench K) (op : Operation K) : Upholds b (op.run b) := by
  cases op with
  | point name v => exact upholds_point name v b
  | segment name start finish =>
    exact upholds_draw name .segment (fun _ o => Sketch.drawn_addSegment start finish o)
      (fun _ => Sketch.contains_addShape _ _) b
  | segmentBetween name x y => exact upholds_segmentBetween name x y b
  | circle name center r =>
    exact upholds_draw name .circle (fun _ o => Sketch.drawn_addCircle center r o)
      (fun _ => Sketch.contains_addShape _ _) b
  | arc name center r ang1 ang2 =>
    exact upholds_draw name .arc (fun _ o => Sketch.drawn_addArc center r ang1 ang2 o)
      (fun _ => Sketch.contains_addShape _ _) b
  | ellipse name ep1 ep2 r =>
    exact upholds_draw name .ellipse (fun _ o => Sketch.drawn_addEllipse ep1 ep2 r o)
      (fun _ => Sketch.contains_addShape _ _) b
  | bezier name p0 p1 p2 p3 =>
    exact upholds_draw name .bezier (fun _ o => Sketch.drawn_addBezier p0 p1 p2 p3 o)
      (fun _ => Sketch.contains_addShape _ _) b
  | rect name x y w h => exact upholds_rect name x y w h b
  | nameObject name id => exact upholds_nameObject name id b
  | constrain name kind objects => exact upholds_constrain name kind objects b
  | constrainWith name kind objects constants =>
    exact upholds_constrainWith name kind objects constants b
  | consistency name object => exact upholds_consistency name object b
  | setConstant name constant value => exact upholds_setConstant name constant value b
  | resync name => exact upholds_resync name b
  | remove name => exact upholds_remove name b
  | load text => exact upholds_load text b
  | movePoint name v =>
    have same := sameLists_movePoint name v b
    exact (evolves_run b (.movePoint name v)).upholds same.1 same.2
  | applyModifiers =>
    have same := sameLists_applyModifiers b
    exact (evolves_run b .applyModifiers).upholds same.1 same.2
  | check name tol =>
    have same := sameLists_check name tol b
    exact (evolves_run b (.check name tol)).upholds same.1 same.2
  | autoCheck => exact (evolves_run b .autoCheck).upholds rfl rfl
  | setValue h x => exact (evolves_run b (.setValue h x)).upholds rfl rfl
  | checkAll tol => exact (evolves_run b (.checkAll tol)).upholds rfl rfl
  | report tol => exact (evolves_run b (.report tol)).upholds rfl rfl

omit [Scalar K] [Written K] in
theorem Founded.empty (autoCheck : Bool) : (empty autoCheck : Workbench K).Founded where
  toSound := .empty autoCheck
  names := by simp [Workbench.empty]
  stands := by simp [Workbench.empty]

/-- After any session names are of objects and constraints stand. -/
theorem founded_after (ops : List (Operation K)) : Founded (after ops) := by
  have all : ∀ b : Workbench K, Founded b → Founded (ops.foldl Operation.run b) := by
    induction ops with
    | nil => exact fun _ f => f
    | cons op ops ih => exact fun b f => ih (op.run b) (upholds_run b op f)
  exact all _ (.empty false)

end Constraints

end Drafting.Workbench
