import Drafting.Proofs.Assigning

namespace Drafting

variable {K : Type}

namespace Sketch

variable {s s₀ t : Sketch K} {R W : Handle → Prop}

variable [Scalar K]

/-- On sketches with the objects of `s₀`, a successful edit gives parameters of `W` values that
depend on the parameters of `R` only. -/
def Repeats {ε α : Type} (s₀ : Sketch K) (R W : Handle → Prop) (m : Edit K ε α) : Prop :=
  ∀ s a t, s.entities = s₀.entities → outcome m s = (.ok a, t) →
    ∃ f, (∀ h, f h ≠ none → W h) ∧ s.Assigned f t ∧
      ∀ s' : Sketch K, s'.entities = s₀.entities → (∀ h, R h → s'.value h = s.value h) →
        ∃ t', outcome m s' = (.ok a, t') ∧ s'.Assigned f t'

namespace Repeats

variable {ε α β : Type}

theorem pure (a : α) : Repeats s₀ R W (pure a : Edit K ε α) := by
  intro s b t same run
  cases run
  exact ⟨_, by simp, .refl s, fun s' _ _ => ⟨s', rfl, .refl s'⟩⟩

theorem throw (e : ε) : Repeats s₀ R W (throw e : Edit K ε α) := by
  intro s a t _ run
  cases run

/-- Nothing that the second part reads was written by the first. -/
theorem bind {m : Edit K ε α} {k : α → Edit K ε β} (apart : ∀ h, R h → ¬ W h)
    (hm : Repeats s₀ R W m) (hk : ∀ a, Repeats s₀ R W (k a)) : Repeats s₀ R W (m >>= k) := by
  intro s b u same run
  obtain ⟨a, t, first, second⟩ := outcome_bind_eq_ok.mp run
  obtain ⟨f, hf, given, again⟩ := hm s a t same first
  obtain ⟨g, hg, given', again'⟩ := hk a t b u (given.entities.trans same) second
  refine ⟨_, fun h written => ?_, given.trans given', fun s' same' values => ?_⟩
  · by_cases hgh : g h = none
    · exact hf h (by simpa [hgh] using written)
    · exact hg h hgh
  · obtain ⟨t', first', assigned⟩ := again s' same' values
    have read : ∀ h, R h → t'.value h = t.value h := by
      intro h hh
      have unwritten : f h = none := by_contra fun written => apart h hh (hf h written)
      rw [assigned.value unwritten, given.value unwritten, values h hh]
    obtain ⟨u', second', assigned'⟩ := again' t' (assigned.entities.trans same') read
    exact ⟨u', outcome_bind_eq_ok.mpr ⟨a, t', first', second'⟩, assigned.trans assigned'⟩

/-- An edit that succeeds where another does, with the same effect, repeats as the other. -/
theorem of_answers {ε' : Type} {m : Edit K ε α} {m' : Edit K ε' β} {g : α → β}
    (hm : Repeats s₀ R W m) (same : ∀ (s t : Sketch K) b, s.entities = s₀.entities →
      (outcome m' s = (.ok b, t) ↔ ∃ a, g a = b ∧ outcome m s = (.ok a, t))) :
    Repeats s₀ R W m' := by
  intro s b t drawn run
  obtain ⟨a, rfl, ran⟩ := (same s t b drawn).mp run
  obtain ⟨f, hf, given, again⟩ := hm s a t drawn ran
  refine ⟨f, hf, given, fun s' drawn' values => ?_⟩
  obtain ⟨t', ran', assigned⟩ := again s' drawn' values
  exact ⟨t', (same s' t' _ drawn').mpr ⟨a, rfl, ran'⟩, assigned⟩

theorem congr {m m' : Edit K ε α} (hm : Repeats s₀ R W m)
    (same : ∀ s : Sketch K, s.entities = s₀.entities → outcome m' s = outcome m s) :
    Repeats s₀ R W m' :=
  hm.of_answers (g := id) fun s t b drawn => by simp [same s drawn]

theorem discard {m : Edit K ε α} (hm : Repeats s₀ R W m) : Repeats s₀ R W (discard m) :=
  hm.of_answers (g := fun _ => ()) fun s t () _ => outcome_discard_eq_ok.trans (by simp)

theorem adapt {ε' : Type} {e : ε → ε'} {m : Edit K ε α} (hm : Repeats s₀ R W m) :
    Repeats s₀ R W (ExceptT.adapt e m) :=
  hm.of_answers (g := id) fun s t b _ => by simp only [outcome_adapt_eq_ok, id, exists_eq_left]

/-- An answer that depends on the parameters that are read. -/
theorem ask_bind {q : Sketch K → Except ε α} {k : α → Edit K ε β}
    (reads : ∀ s s' : Sketch K, s.entities = s₀.entities → s'.entities = s₀.entities →
      (∀ h, R h → s'.value h = s.value h) → q s' = q s)
    (hk : ∀ s a, s.entities = s₀.entities → q s = .ok a → Repeats s₀ R W (k a)) :
    Repeats s₀ R W (ask q >>= k) := by
  intro s b t same run
  obtain ⟨a, _, asked, rest⟩ := outcome_bind_eq_ok.mp run
  obtain ⟨answer, rfl⟩ := outcome_ask_eq_ok.mp asked
  obtain ⟨f, hf, given, again⟩ := hk s a same answer s b t same rest
  refine ⟨f, hf, given, fun s' same' values => ?_⟩
  obtain ⟨t', rest', assigned⟩ := again s' same' values
  have answer' := (reads s s' same same' values).trans answer
  exact ⟨t', outcome_bind_eq_ok.mpr ⟨a, s', outcome_ask_eq_ok.mpr ⟨answer', rfl⟩, rest'⟩, assigned⟩

theorem forM {as : List α} {k : α → Edit K ε Unit} (apart : ∀ h, R h → ¬ W h)
    (hk : ∀ a ∈ as, Repeats s₀ R W (k a)) : Repeats s₀ R W (as.forM k) := by
  induction as with
  | nil => exact .pure ()
  | cons a as ih =>
    refine .bind apart (hk a (by simp)) fun _ => ih fun b hb => ?_
    exact hk b (List.mem_cons_of_mem _ hb)

end Repeats

theorem position_congr (same : t.entities = s.entities) {id : ObjectId}
    (values : ∀ p, s.point id = .ok p → t.value p.x = s.value p.x ∧ t.value p.y = s.value p.y) :
    t.position id = s.position id := by
  rw [position, position, point_congr same]
  cases hp : s.point id with
  | error e => rfl
  | ok p =>
    obtain ⟨hx, hy⟩ := values p hp
    change Except.ok _ = Except.ok _
    rw [hx, hy]

omit [Scalar K] in
theorem segment_congr (same : t.entities = s.entities) (id : ObjectId) :
    t.segment id = s.segment id := by
  simp only [segment, asA, entity_congr same]

/-- A reflection depends on what its line carries. -/
theorem reflection_congr (same : t.entities = s.entities) {line : ObjectId}
    (values : ∀ h, s.Carries line h → t.value h = s.value h) :
    t.reflection line = s.reflection line := by
  rw [reflection, reflection, segment_congr same]
  cases hg : s.segment line with
  | error e => rfl
  | ok g =>
    obtain ⟨⟨number, shape, owner⟩, he, view⟩ := asA_eq_ok_iff.mp hg
    cases shape <;> cases view
    have ends := child_into he values
    have a := position_congr same (ends g.a (by simp))
    have b := position_congr same (ends g.b (by simp))
    simp only [bind, Except.bind, a, b]

omit [Scalar K] in
theorem Carries.congr {id : ObjectId} {h : Handle} (carried : s.Carries id h)
    (same : t.entities = s.entities) : t.Carries id h := by
  obtain ⟨e, he, own | ⟨c, hc, p, hp, hxy⟩⟩ := carried
  · exact ⟨e, (entity?_congr same id).trans he, .inl own⟩
  · exact ⟨e, (entity?_congr same id).trans he, .inr ⟨c, hc, p, (point_congr same c).trans hp, hxy⟩⟩

section Mirroring

variable (r : Reflection K) {source target : ObjectId}

theorem repeats_writeValue {h : Handle} (hh : W h) (x : K) :
    Repeats s₀ R W (writeValue h x) := by
  intro s _ t _ run
  cases run
  refine ⟨_, fun k written => ?_, .setValue h x s, fun s' _ _ => ⟨_, rfl, .setValue h x s'⟩⟩
  obtain rfl : k = h := by
    by_contra ne
    simp [ne] at written
  exact hh

/-- A value is copied from what is read to what is written. -/
theorem repeats_copyValue {k h : Handle} (hk : R k) (hh : W h) :
    Repeats s₀ R W (copyValue k h) := by
  intro s a t same run
  have write : Repeats s₀ R W (writeValue h (s.value k)) := repeats_writeValue hh _
  obtain ⟨f, hf, given, again⟩ := write s a t same run
  refine ⟨f, hf, given, fun s' same' values => ?_⟩
  obtain ⟨t', run', assigned⟩ := again s' same' values
  refine ⟨t', ?_, assigned⟩
  rw [← run', ← values k hk]
  rfl

omit [Scalar K] in
/-- Moving a point is writing its coordinates. -/
theorem outcome_place {s : Sketch K} {p : Point} (hp : s.point target = .ok p) (v : Vec K) :
    outcome (ask (·.setPosition target v) >>= fun t => set t >>= fun _ => pure v :
      Edit K SketchError (Vec K)) s =
      outcome (writeValue p.x v.x >>= fun _ => writeValue p.y v.y >>= fun _ => pure v) s := by
  have moved : s.setPosition target v = .ok ((s.setValue p.x v.x).setValue p.y v.y) :=
    bind_eq_ok.mpr ⟨p, hp, rfl⟩
  rw [outcome_bind_ok (outcome_ask_eq_ok.mpr ⟨moved, rfl⟩)]
  rfl

theorem repeats_place (apart : ∀ h, R h → ¬ W h)
    (into : ∀ p, s₀.point target = .ok p → W p.x ∧ W p.y) (v : Vec K) :
    Repeats s₀ R W (ask (·.setPosition target v) >>= fun t => set t >>= fun _ => pure v :
      Edit K SketchError (Vec K)) := by
  cases hp : s₀.point target with
  | ok p =>
    obtain ⟨hx, hy⟩ := into p hp
    have writes : Repeats s₀ R W
        (writeValue p.x v.x >>= fun _ => writeValue p.y v.y >>= fun _ => pure v) :=
      .bind apart (repeats_writeValue hx v.x) fun _ =>
        .bind apart (repeats_writeValue hy v.y) fun _ => .pure v
    exact writes.congr fun s same => outcome_place ((point_congr same target).trans hp) v
  | error e =>
    refine (Repeats.throw e).congr fun s same => ?_
    have missing : s.setPosition target v = .error e := by
      rw [setPosition, point_congr same, hp]
      rfl
    rw [outcome_bind, outcome_ask, missing]
    rfl

/-- The target is moved to the reflection of the source, which alone is read. -/
theorem repeats_reflectPoint (apart : ∀ h, R h → ¬ W h)
    (reads : ∀ p, s₀.point source = .ok p → R p.x ∧ R p.y)
    (into : ∀ p, s₀.point target = .ok p → W p.x ∧ W p.y) :
    Repeats s₀ R W (reflectPoint r source target) := by
  refine .ask_bind (fun s s' same same' values => ?_) fun _ v _ _ => ?_
  · refine position_congr (same'.trans same.symm) fun p hp => ?_
    obtain ⟨hx, hy⟩ := reads p ((point_congr same source).symm.trans hp)
    exact ⟨values p.x hx, values p.y hy⟩
  · exact repeats_place apart into (r.apply v)

section Shapes

variable {e e' : Entity} (apart : ∀ h, R h → ¬ W h)
  (ownR : ∀ h ∈ e.shape.own, R h) (ownW : ∀ h ∈ e'.shape.own, W h)
  (childR : ∀ c ∈ e.shape.children, ∀ p, s₀.point c = .ok p → R p.x ∧ R p.y)
  (childW : ∀ c ∈ e'.shape.children, ∀ p, s₀.point c = .ok p → W p.x ∧ W p.y)

include apart ownR ownW childR childW

theorem repeats_mirrorSegment {a d : Segment} (ha : e.shape = .segment a)
    (hd : e'.shape = .segment d) : Repeats s₀ R W (mirrorSegment r a d) := by
  rw [ha] at ownR childR
  rw [hd] at ownW childW
  refine .bind apart (repeats_reflectPoint r apart (childR a.a ?_) (childW d.a ?_)) fun p => ?_
  · simp
  · simp
  refine .bind apart (repeats_reflectPoint r apart (childR a.b ?_) (childW d.b ?_)) fun q => ?_
  · simp
  · simp
  refine .bind apart (repeats_writeValue (ownW d.ang ?_) _) fun _ => ?_
  · simp
  refine repeats_copyValue (ownR a.t ?_) (ownW d.t ?_)
  · simp
  · simp

theorem repeats_mirrorArc {a d : Arc} (ha : e.shape = .arc a) (hd : e'.shape = .arc d) :
    Repeats s₀ R W (mirrorArc r a d) := by
  rw [ha] at ownR childR
  rw [hd] at ownW childW
  refine .bind apart (repeats_reflectPoint r apart (childR a.c ?_) (childW d.c ?_)) fun c => ?_
  · simp
  · simp
  refine .bind apart (repeats_reflectPoint r apart (childR a.b ?_) (childW d.a ?_)) fun p => ?_
  · simp
  · simp
  refine .bind apart (repeats_reflectPoint r apart (childR a.a ?_) (childW d.b ?_)) fun q => ?_
  · simp
  · simp
  refine .bind apart (repeats_copyValue (ownR a.r ?_) (ownW d.r ?_)) fun _ => ?_
  · simp
  · simp
  refine .bind apart (repeats_writeValue (ownW d.ang1 ?_) _) fun _ => ?_
  · simp
  refine repeats_writeValue (ownW d.ang2 ?_) _
  simp

end Shapes

/-- Mirroring reads what the source carries and writes what the target carries. -/
theorem repeats_mirrorInto (apart : ∀ h, R h → ¬ W h) (reads : ∀ h, s₀.Carries source h → R h)
    (into : ∀ h, s₀.Carries target h → W h) : Repeats s₀ R W (mirrorInto r source target) := by
  have known : ∀ (id : ObjectId) (s s' : Sketch K), s.entities = s₀.entities →
      s'.entities = s₀.entities → (∀ h, R h → s'.value h = s.value h) →
        s'.entity id = s.entity id :=
    fun id s s' same same' _ => entity_congr (same'.trans same.symm) id
  refine .ask_bind (known source) fun s src same hs => ?_
  refine .ask_bind (known target) fun t dst same' ht => ?_
  have he : s₀.entity? source = some src :=
    (entity?_congr same source).symm.trans (entity_eq_ok_iff.mp hs)
  have he' : s₀.entity? target = some dst :=
    (entity?_congr same' target).symm.trans (entity_eq_ok_iff.mp ht)
  have ownR := own_into he reads
  have ownW := own_into he' into
  have childR := child_into he reads
  have childW := child_into he' into
  have reflected : ∀ a ∈ src.shape.children, ∀ d ∈ dst.shape.children,
      Repeats s₀ R W (discard (reflectPoint r a d)) :=
    fun a ha d hd => (repeats_reflectPoint r apart (childR a ha) (childW d hd)).discard
  split
  · exact (repeats_reflectPoint r apart (point_into reads) (point_into into)).discard
  · rename_i a d ha hd
    exact repeats_mirrorSegment r apart ownR ownW childR childW ha hd
  · rename_i a d ha hd
    rw [ha, hd] at reflected
    rw [ha] at ownR
    rw [hd] at ownW
    refine .bind apart (reflected a.c ?_ d.c ?_) fun _ => ?_
    · simp
    · simp
    · exact repeats_copyValue (ownR a.r (by simp)) (ownW d.r (by simp))
  · rename_i a d ha hd
    exact repeats_mirrorArc r apart ownR ownW childR childW ha hd
  · rename_i a d ha hd
    rw [ha, hd] at reflected
    rw [ha] at ownR
    rw [hd] at ownW
    refine .bind apart (reflected a.ep1 ?_ d.ep1 ?_) fun _ => ?_
    · simp
    · simp
    refine .bind apart (reflected a.ep2 ?_ d.ep2 ?_) fun _ => ?_
    · simp
    · simp
    · exact repeats_copyValue (ownR a.r (by simp)) (ownW d.r (by simp))
  · rename_i a d ha hd
    rw [ha, hd] at reflected
    refine .bind apart (reflected a.p0 ?_ d.p0 ?_) fun _ => ?_
    · simp
    · simp
    refine .bind apart (reflected a.p1 ?_ d.p1 ?_) fun _ => ?_
    · simp
    · simp
    refine .bind apart (reflected a.p2 ?_ d.p2 ?_) fun _ => ?_
    · simp
    · simp
    refine reflected a.p3 ?_ d.p3 ?_
    · simp
    · simp
  · exact .throw _

end Mirroring

end Sketch

namespace Constraint

/-- The parameters that a modifier reads: those that its line and its sources carry. -/
def Reads (c : Constraint K) (s : Sketch K) (h : Handle) : Prop := ∃ q ∈ c.reference, s.Carries q h

/-- The parameters that a modifier may write: those that its targets carry. -/
def Sets (c : Constraint K) (s : Sketch K) (h : Handle) : Prop := ∃ o ∈ c.managed, s.Carries o h

/-- A modifier that does not write what it reads gives the same values again, whatever else was
written before. -/
theorem repeats_modify [Scalar K] (c : Constraint K) (s₀ : Sketch K)
    (apart : ∀ h, c.Reads s₀ h → ¬ c.Sets s₀ h) :
    Sketch.Repeats s₀ (c.Reads s₀) (c.Sets s₀) c.modify := by
  unfold modify Kind.modify
  split
  · cases reference : c.reference with
    | nil => exact .pure ()
    | cons line sources =>
      refine .adapt (.ask_bind (fun s s' same same' values => ?_) fun _ r _ _ => ?_)
      · refine Sketch.reflection_congr (same'.trans same.symm) fun h carried => values h ?_
        exact ⟨line, by simp [reference], carried.congr same.symm⟩
      · refine .forM apart fun pair hp => ?_
        obtain ⟨source, target⟩ := List.of_mem_zip hp
        refine Sketch.repeats_mirrorInto r apart (fun h carried => ?_) fun h carried => ?_
        · exact ⟨pair.1, by simp [reference, source], carried⟩
        · exact ⟨pair.2, target, carried⟩
  · exact .throw _

end Constraint

end Drafting
