import Drafting.Proofs.Reaching
import Drafting.Proofs.Repeating

namespace Drafting

variable {K : Type}

/-- A mirror has as many targets as sources after its line, and they are all of its objects. -/
theorem Kind.split_mirror {objects reference managed : List ObjectId}
    (accepted : Kind.mirror.arity.accepts objects.length)
    (split : Kind.mirror.split? objects = some (reference, managed)) :
    ∃ line sources, reference = line :: sources ∧ objects = line :: (sources ++ managed) ∧
      sources.length = managed.length := by
  simp only [arity, Arity.accepts, Bool.and_eq_true, decide_eq_true_eq, beq_iff_eq] at accepted
  obtain ⟨many, odd⟩ := accepted
  obtain ⟨rfl, rfl⟩ : reference = objects.take (objects.length / 2 + 1) ∧
      managed = objects.drop ((objects.length + 1) / 2) := by
    simpa [split?, isModifier, eq_comm] using split
  have half : (objects.length + 1) / 2 = objects.length / 2 + 1 := by omega
  cases objects with
  | nil => simp at many
  | cons line rest =>
    rw [half]
    refine ⟨line, rest.take ((rest.length + 1) / 2), by simp, by simp, ?_⟩
    simp only [List.length_cons, List.length_take, List.length_drop] at odd ⊢
    omega

def Point.put (p : Point) (v : Vec K) : List (Handle × K) := [(p.x, v.x), (p.y, v.y)]

namespace Sketch

def assign (s : Sketch K) (ws : List (Handle × K)) : Sketch K :=
  ws.foldl (fun s w => s.setValue w.1 w.2) s

section Assign

variable {s : Sketch K} {W : Handle → Prop} {ws vs : List (Handle × K)} {h : Handle}

theorem assign_append : s.assign (ws ++ vs) = (s.assign ws).assign vs := List.foldl_append

theorem writes_assign (within : ∀ w ∈ ws, W w.1) : s.Writes W (s.assign ws) := by
  induction ws generalizing s with
  | nil => exact .refl s
  | cons w ws ih =>
    obtain ⟨first, rest⟩ := List.forall_mem_cons.mp within
    exact (Writes.setValue first s w.2).trans (ih rest)

variable [Scalar K]

theorem value_assign_of_not (within : ∀ w ∈ ws, W w.1) (other : ¬ W h) :
    (s.assign ws).value h = s.value h := by
  rw [value, value, (writes_assign within).others h other]

/-- Where no parameter is set twice, each keeps what it was set to. -/
theorem value_assign (live : ∀ w ∈ ws, (s.param? w.1).isSome) (once : (ws.map Prod.fst).Nodup) :
    ∀ w ∈ ws, (s.assign ws).value w.1 = w.2 := by
  induction ws generalizing s with
  | nil => simp
  | cons w ws ih =>
    obtain ⟨here, others⟩ := List.forall_mem_cons.mp live
    obtain ⟨new, rest⟩ := List.nodup_cons.mp once
    refine List.forall_mem_cons.mpr ⟨?_, ih (fun v hv => ?_) rest⟩
    · have kept : (s.assign (w :: ws)).value w.1 = (s.setValue w.1 w.2).value w.1 :=
        value_assign_of_not (W := (· ∈ ws.map Prod.fst)) (fun v hv => List.mem_map_of_mem hv) new
      rw [kept, value_setValue_self here]
    · have write : s.Writes (fun _ => True) (s.setValue w.1 w.2) := .setValue trivial s w.2
      exact (write.live v.1).trans (others v hv)

end Assign

section Steps

variable {ε α β : Type} {s : Sketch K} {W : Handle → Prop} {ws vs : List (Handle × K)} {a : α}
  {b : β} {h k : Handle}

/-- Whatever was set before in `W`, the step sets what is in the list, all of it in `W`. -/
structure Assigns (s : Sketch K) (W : Handle → Prop) (m : Edit K ε α) (a : α)
    (ws : List (Handle × K)) : Prop where
  within : ∀ w ∈ ws, W w.1
  runs : ∀ vs, (∀ w ∈ vs, W w.1) → outcome m (s.assign vs) = (.ok a, s.assign (vs ++ ws))

theorem Assigns.bind {m : Edit K ε α} {f : α → Edit K ε β} (first : s.Assigns W m a ws)
    (second : s.Assigns W (f a) b vs) : s.Assigns W (m >>= f) b (ws ++ vs) where
  within w hw := (List.mem_append.mp hw).elim (first.within w) (second.within w)
  runs us within := by
    rw [outcome_bind_ok (first.runs us within), second.runs, List.append_assoc]
    exact fun w hw => (List.mem_append.mp hw).elim (within w) (first.within w)

theorem Assigns.discard {m : Edit K ε α} (set : s.Assigns W m a ws) :
    s.Assigns W (discard m) () ws where
  within := set.within
  runs us within := outcome_discard_eq_ok.mpr ⟨a, set.runs us within⟩

theorem Assigns.ask_bind {f : Sketch K → Except ε α} {g : α → Edit K ε β}
    (answer : ∀ u, u.entities = s.entities → f u = .ok a) (then_ : s.Assigns W (g a) b ws) :
    s.Assigns W (ask f >>= g) b ws where
  within := then_.within
  runs us within := by
    have same := (writes_assign (s := s) within).entities
    rw [outcome_bind_ok (outcome_ask_eq_ok.mpr ⟨answer _ same, rfl⟩), then_.runs us within]

theorem assigns_writeValue (hh : W h) (x : K) : s.Assigns W (writeValue h x) () [(h, x)] where
  within := by simpa using hh
  runs us _ := by
    rw [assign_append]
    rfl

variable [Scalar K]

/-- What is copied is the value of before, since nothing that is read was written. -/
theorem assigns_copyValue (hk : ¬ W k) (hh : W h) :
    s.Assigns W (copyValue k h) () [(h, s.value k)] where
  within := by simpa using hh
  runs us within := by
    rw [assign_append, ← value_assign_of_not within hk]
    rfl

theorem assigns_reflectPoint (r : Reflection K) {source target : ObjectId} {v : Vec K} {q : Point}
    (hv : s.position source = .ok v)
    (reads : ∀ p, s.point source = .ok p → ¬ W p.x ∧ ¬ W p.y) (hq : s.point target = .ok q)
    (into : ∀ p, s.point target = .ok p → W p.x ∧ W p.y) :
    s.Assigns W (reflectPoint r source target) (r.apply v) (q.put (r.apply v)) where
  within := by
    obtain ⟨hx, hy⟩ := into q hq
    simp [Point.put, hx, hy]
  runs us within := by
    have same := (writes_assign (s := s) within).entities
    have there : (s.assign us).position source = .ok v := by
      rw [position_congr same fun p hp => ?_, hv]
      obtain ⟨hx, hy⟩ := reads p hp
      exact ⟨value_assign_of_not within hx, value_assign_of_not within hy⟩
    unfold reflectPoint
    rw [outcome_bind_ok (outcome_ask_eq_ok.mpr ⟨there, rfl⟩)]
    refine (outcome_place ((point_congr same target).trans hq) (r.apply v)).trans ?_
    rw [assign_append]
    rfl

end Steps

section Drafts

variable [Scalar K]

/-- What is written, in turn, to make one shape the mirror image of another. -/
inductive Drafts (s : Sketch K) (r : Reflection K) : Shape → Shape → List (Handle × K) → Prop where
  | point (p q : Point) :
    s.Drafts r (.point p) (.point q) (q.put (r.apply ⟨s.value p.x, s.value p.y⟩))
  | segment {x y : Segment} {a b : Vec K} {p q : Point} (ha : s.position x.a = .ok a)
    (hb : s.position x.b = .ok b) (hp : s.point y.a = .ok p) (hq : s.point y.b = .ok q) :
    s.Drafts r (.segment x) (.segment y) (p.put (r.apply a) ++ (q.put (r.apply b) ++
      ([(y.ang, ((r.apply b).sub (r.apply a)).direction)] ++ [(y.t, s.value x.t)])))
  | circle {x y : Circle} {c : Vec K} {p : Point} (hc : s.position x.c = .ok c)
    (hp : s.point y.c = .ok p) :
    s.Drafts r (.circle x) (.circle y) (p.put (r.apply c) ++ [(y.r, s.value x.r)])
  | arc {x y : Arc} {a b c : Vec K} {p q m : Point} (ha : s.position x.a = .ok a)
    (hb : s.position x.b = .ok b) (hc : s.position x.c = .ok c) (hp : s.point y.a = .ok p)
    (hq : s.point y.b = .ok q) (hm : s.point y.c = .ok m) :
    s.Drafts r (.arc x) (.arc y) (m.put (r.apply c) ++ (p.put (r.apply b) ++
      (q.put (r.apply a) ++ ([(y.r, s.value x.r)] ++
        ([(y.ang1, ((r.apply b).sub (r.apply c)).direction)] ++
          [(y.ang2, ((r.apply a).sub (r.apply c)).direction)])))))
  | ellipse {x y : Ellipse} {a b : Vec K} {p q : Point} (ha : s.position x.ep1 = .ok a)
    (hb : s.position x.ep2 = .ok b) (hp : s.point y.ep1 = .ok p) (hq : s.point y.ep2 = .ok q) :
    s.Drafts r (.ellipse x) (.ellipse y)
      (p.put (r.apply a) ++ (q.put (r.apply b) ++ [(y.r, s.value x.r)]))
  | bezier {x y : Bezier} {a b c d : Vec K} {p q m n : Point} (ha : s.position x.p0 = .ok a)
    (hb : s.position x.p1 = .ok b) (hc : s.position x.p2 = .ok c) (hd : s.position x.p3 = .ok d)
    (hp : s.point y.p0 = .ok p) (hq : s.point y.p1 = .ok q) (hm : s.point y.p2 = .ok m)
    (hn : s.point y.p3 = .ok n) :
    s.Drafts r (.bezier x) (.bezier y)
      (p.put (r.apply a) ++ (q.put (r.apply b) ++ (m.put (r.apply c) ++ n.put (r.apply d))))

variable {s t : Sketch K} {r : Reflection K} {x y : Shape} {ws vs : List (Handle × K)}
  {ks hs : List Handle} {W : Handle → Prop} {source target : ObjectId}

/-- Between shapes of one kind there is always something to write. -/
theorem exists_drafts (r : Reflection K) (kind : x.kind = y.kind) (source : s.Lists x ks)
    (target : s.Lists y hs) : ∃ ws, s.Drafts r x y ws := by
  have found {id : ObjectId} {p : Point} (hp : s.point id = .ok p) := position_of_point hp
  cases source with
  | point p =>
    cases target <;> cases kind
    exact ⟨_, .point p _⟩
  | segment x ha hb =>
    cases target <;> cases kind
    rename_i hp hq
    exact ⟨_, .segment (found ha) (found hb) hp hq⟩
  | circle x hc =>
    cases target <;> cases kind
    rename_i hp
    exact ⟨_, .circle (found hc) hp⟩
  | arc x ha hb hc =>
    cases target <;> cases kind
    rename_i hp hq hm
    exact ⟨_, .arc (found ha) (found hb) (found hc) hp hq hm⟩
  | ellipse x ha hb =>
    cases target <;> cases kind
    rename_i hp hq
    exact ⟨_, .ellipse (found ha) (found hb) hp hq⟩
  | bezier x ha hb hc hd =>
    cases target <;> cases kind
    rename_i hp hq hm hn
    exact ⟨_, .bezier (found ha) (found hb) (found hc) (found hd) hp hq hm hn⟩

/-- Every parameter of the target is written once. -/
theorem Drafts.handles (d : s.Drafts r x y ws) (listed : s.Lists y hs) :
    (ws.map Prod.fst).Perm hs := by
  -- arcs and curves are listed in another order than they are written in
  have swapped (u v : List Handle) : (u ++ v).Perm (v ++ u) := List.perm_append_comm
  have turned (u v w : List Handle) : (u ++ (v ++ w)).Perm (w ++ (v ++ u)) := by
    refine (swapped u (v ++ w)).trans ?_
    rw [List.append_assoc]
    exact List.perm_append_comm_assoc v w u
  cases d with
  | point p q =>
    cases listed
    rfl
  | segment ha hb hp hq =>
    cases listed with
    | segment _ hp' hq' =>
      cases hp.symm.trans hp'
      cases hq.symm.trans hq'
      rfl
  | circle hc hp =>
    cases listed with
    | circle _ hp' =>
      cases hp.symm.trans hp'
      rfl
  | arc ha hb hc hp hq hm =>
    cases listed with
    | arc _ hp' hq' hm' =>
      cases hp.symm.trans hp'
      cases hq.symm.trans hq'
      cases hm.symm.trans hm'
      exact turned [_, _] [_, _, _, _] [_, _, _]
  | ellipse ha hb hp hq =>
    cases listed with
    | ellipse _ hp' hq' =>
      cases hp.symm.trans hp'
      cases hq.symm.trans hq'
      rfl
  | bezier ha hb hc hd hp hq hm hn =>
    cases listed with
    | bezier _ hp' hq' hm' hn' =>
      cases hp.symm.trans hp'
      cases hq.symm.trans hq'
      cases hm.symm.trans hm'
      cases hn.symm.trans hn'
      exact List.Perm.append_left [_, _] (swapped [_, _, _, _] [_, _])

/-- Mirroring a shape sets what is drafted, where it writes nothing that it reads. -/
theorem Drafts.assigns {e f : Entity} (d : s.Drafts r e.shape f.shape ws)
    (he : s.entity? source = some e) (hf : s.entity? target = some f)
    (reads : ∀ h, s.Carries source h → ¬ W h) (into : ∀ h, s.Carries target h → W h) :
    s.Assigns W (mirrorInto r source target) () ws := by
  refine .ask_bind (entity_of_entity? he) (.ask_bind (entity_of_entity? hf) ?_)
  have ownR := own_into he reads
  have childR := child_into he reads
  have ownW := own_into hf into
  have childW := child_into hf into
  have pointR := point_into reads
  obtain ⟨number, x, owner⟩ := e
  obtain ⟨number', y, owner'⟩ := f
  simp only at d ownR childR ownW childW ⊢
  have image {c c' : ObjectId} {v : Vec K} {q : Point} (hv : s.position c = .ok v)
      (hq : s.point c' = .ok q) (hc : c ∈ x.children) (hc' : c' ∈ y.children) :
      s.Assigns W (reflectPoint r c c') (r.apply v) (q.put (r.apply v)) :=
    assigns_reflectPoint r hv (childR c hc) hq (childW c' hc')
  have copy {k h : Handle} (hk : k ∈ x.own) (hh : h ∈ y.own) :
      s.Assigns W (copyValue k h) () [(h, s.value k)] := assigns_copyValue (ownR k hk) (ownW h hh)
  have turn {h : Handle} (hh : h ∈ y.own) (z : K) :
      s.Assigns W (writeValue h z) () [(h, z)] := assigns_writeValue (ownW h hh) z
  cases d with
  | point p q =>
    have hp : s.point source = .ok p := point_eq_ok_iff.mpr ⟨_, he, rfl⟩
    have hq : s.point target = .ok q := point_eq_ok_iff.mpr ⟨_, hf, rfl⟩
    exact (assigns_reflectPoint r (position_of_point hp) pointR hq (point_into into)).discard
  | segment ha hb hp hq =>
    refine (image ha hp (by simp) (by simp)).bind ((image hb hq (by simp) (by simp)).bind ?_)
    exact (turn (by simp) _).bind (copy (by simp) (by simp))
  | circle hc hp =>
    exact (image hc hp (by simp) (by simp)).discard.bind (copy (by simp) (by simp))
  | arc ha hb hc hp hq hm =>
    refine (image hc hm (by simp) (by simp)).bind ((image hb hp (by simp) (by simp)).bind ?_)
    refine (image ha hq (by simp) (by simp)).bind ((copy (by simp) (by simp)).bind ?_)
    exact (turn (by simp) _).bind (turn (by simp) _)
  | ellipse ha hb hp hq =>
    refine (image ha hp (by simp) (by simp)).discard.bind ?_
    exact (image hb hq (by simp) (by simp)).discard.bind (copy (by simp) (by simp))
  | bezier ha hb hc hd hp hq hm hn =>
    refine (image ha hp (by simp) (by simp)).discard.bind ?_
    refine (image hb hq (by simp) (by simp)).discard.bind ?_
    refine (image hc hm (by simp) (by simp)).discard.bind ?_
    exact (image hd hn (by simp) (by simp)).discard

/-- Only a shape of the same kind is mirrored onto. -/
theorem kinds_of_mirrorInto (h : outcome (mirrorInto r source target) s = (.ok (), t)) :
    ∃ e f, s.entity? source = some e ∧ s.entity? target = some f ∧ e.shape.kind = f.shape.kind := by
  obtain ⟨e, _, asked, h⟩ := outcome_bind_eq_ok.mp h
  obtain ⟨he, rfl⟩ := outcome_ask_eq_ok.mp asked
  obtain ⟨f, _, asked, h⟩ := outcome_bind_eq_ok.mp h
  obtain ⟨hf, rfl⟩ := outcome_ask_eq_ok.mp asked
  refine ⟨e, f, entity_eq_ok_iff.mp he, entity_eq_ok_iff.mp hf, ?_⟩
  split at h
  case h_7 => cases h
  all_goals
    rename_i x y
    rw [x, y]
    rfl

def DraftsFor (s : Sketch K) (r : Reflection K) (source target : ObjectId)
    (ws : List (Handle × K)) : Prop :=
  ∃ e f, s.entity? source = some e ∧ s.entity? target = some f ∧ s.Drafts r e.shape f.shape ws

/-- Mirroring in turn sets what is drafted for each pair. -/
theorem exists_drafted (o : s.Ordered) {pairs : List (ObjectId × ObjectId)}
    (reads : ∀ pair ∈ pairs, ∀ h, s.Carries pair.1 h → ¬ W h)
    (into : ∀ pair ∈ pairs, ∀ h, s.Carries pair.2 h → W h) (vs : List (Handle × K))
    (within : ∀ v ∈ vs, W v.1)
    (h : outcome (pairs.forM fun pair => mirrorInto r pair.1 pair.2) (s.assign vs) = (.ok (), t)) :
    ∃ ws, t = s.assign (vs ++ ws) ∧
      (ws.map Prod.fst).Perm ((pairs.map Prod.snd).flatMap s.visited) ∧
      ∀ pair ∈ pairs, ∃ us ⊆ ws, s.DraftsFor r pair.1 pair.2 us := by
  induction pairs generalizing vs with
  | nil =>
    cases h
    exact ⟨[], by simp, .nil, by simp⟩
  | cons pair pairs ih =>
    obtain ⟨_, _, first, rest⟩ := outcome_bind_eq_ok.mp h
    have same := (writes_assign (s := s) within).entities
    obtain ⟨e, f, he, hf, kind⟩ := kinds_of_mirrorInto first
    rw [entity?_congr same] at he hf
    obtain ⟨_, -, source⟩ := o.exists_listed he
    obtain ⟨hs, params, target⟩ := o.exists_listed hf
    obtain ⟨us, drafts⟩ := exists_drafts r kind source target
    have set := drafts.assigns he hf (reads pair (by simp)) (into pair (by simp))
    cases (set.runs vs within).symm.trans first
    obtain ⟨ws, rfl, perm, all⟩ := ih (fun p hp => reads p (List.mem_cons_of_mem _ hp))
      (fun p hp => into p (List.mem_cons_of_mem _ hp))
      (vs ++ us) (fun v hv => (List.mem_append.mp hv).elim (within v) (set.within v)) rest
    refine ⟨us ++ ws, by rw [List.append_assoc], ?_, List.forall_mem_cons.mpr ⟨?_, fun p hp => ?_⟩⟩
    · rw [List.map_append, List.map_cons, List.flatMap_cons, visited_of_objectParams params]
      exact (drafts.handles target).append perm
    · exact ⟨us, List.subset_append_left _ _, e, f, he, hf, drafts⟩
    · obtain ⟨vs, sub, drafted⟩ := all p hp
      exact ⟨vs, List.subset_append_of_subset_right _ sub, drafted⟩

/-- In `t` the second shape is the mirror image of the first one in `s`: its points lie where the
others are reflected to, its size is the same, and its angles are those between its points. The ends
of an arc change places. -/
inductive Mirrors (s t : Sketch K) (r : Reflection K) : Shape → Shape → Prop where
  | point {p q : Point} (lies : (⟨t.value q.x, t.value q.y⟩ : Vec K) =
      r.apply ⟨s.value p.x, s.value p.y⟩) : s.Mirrors t r (.point p) (.point q)
  | segment {x y : Segment} {a b : Vec K} (ha : s.position x.a = .ok a)
    (hb : s.position x.b = .ok b) (start : t.position y.a = .ok (r.apply a))
    (finish : t.position y.b = .ok (r.apply b)) (length : t.value y.t = s.value x.t)
    (ang : t.value y.ang = ((r.apply b).sub (r.apply a)).direction) :
    s.Mirrors t r (.segment x) (.segment y)
  | circle {x y : Circle} {c : Vec K} (hc : s.position x.c = .ok c)
    (center : t.position y.c = .ok (r.apply c)) (radius : t.value y.r = s.value x.r) :
    s.Mirrors t r (.circle x) (.circle y)
  | arc {x y : Arc} {a b c : Vec K} (ha : s.position x.a = .ok a) (hb : s.position x.b = .ok b)
    (hc : s.position x.c = .ok c) (start : t.position y.a = .ok (r.apply b))
    (finish : t.position y.b = .ok (r.apply a)) (center : t.position y.c = .ok (r.apply c))
    (radius : t.value y.r = s.value x.r)
    (ang1 : t.value y.ang1 = ((r.apply b).sub (r.apply c)).direction)
    (ang2 : t.value y.ang2 = ((r.apply a).sub (r.apply c)).direction) :
    s.Mirrors t r (.arc x) (.arc y)
  | ellipse {x y : Ellipse} {a b : Vec K} (ha : s.position x.ep1 = .ok a)
    (hb : s.position x.ep2 = .ok b) (start : t.position y.ep1 = .ok (r.apply a))
    (finish : t.position y.ep2 = .ok (r.apply b)) (radius : t.value y.r = s.value x.r) :
    s.Mirrors t r (.ellipse x) (.ellipse y)
  | bezier {x y : Bezier} {a b c d : Vec K} (ha : s.position x.p0 = .ok a)
    (hb : s.position x.p1 = .ok b) (hc : s.position x.p2 = .ok c) (hd : s.position x.p3 = .ok d)
    (p0 : t.position y.p0 = .ok (r.apply a)) (p1 : t.position y.p1 = .ok (r.apply b))
    (p2 : t.position y.p2 = .ok (r.apply c)) (p3 : t.position y.p3 = .ok (r.apply d)) :
    s.Mirrors t r (.bezier x) (.bezier y)

/-- Where all that is drafted is there, so is the mirror image. -/
theorem Drafts.mirrors (d : s.Drafts r x y ws) (same : t.entities = s.entities)
    (set : ∀ w ∈ ws, t.value w.1 = w.2) : s.Mirrors t r x y := by
  have lies {id : ObjectId} {p : Point} {v : Vec K} (hp : s.point id = .ok p)
      (hx : t.value p.x = v.x) (hy : t.value p.y = v.y) : t.position id = .ok v := by
    rw [position_of_point ((point_congr same id).trans hp), hx, hy]
  cases d with
  | point p q =>
    simp only [Point.put, List.forall_mem_cons] at set
    exact .point (Vec.ext set.1 set.2.1)
  | segment ha hb hp hq =>
    simp only [Point.put, List.cons_append, List.nil_append, List.forall_mem_cons] at set
    obtain ⟨ax, ay, bx, b_y, ang, length, -⟩ := set
    exact .segment ha hb (lies hp ax ay) (lies hq bx b_y) length ang
  | circle hc hp =>
    simp only [Point.put, List.cons_append, List.nil_append, List.forall_mem_cons] at set
    obtain ⟨cx, cy, radius, -⟩ := set
    exact .circle hc (lies hp cx cy) radius
  | arc ha hb hc hp hq hm =>
    simp only [Point.put, List.cons_append, List.nil_append, List.forall_mem_cons] at set
    obtain ⟨cx, cy, ax, ay, bx, b_y, radius, ang1, ang2, -⟩ := set
    exact .arc ha hb hc (lies hp ax ay) (lies hq bx b_y) (lies hm cx cy) radius ang1 ang2
  | ellipse ha hb hp hq =>
    simp only [Point.put, List.cons_append, List.nil_append, List.forall_mem_cons] at set
    obtain ⟨ax, ay, bx, b_y, radius, -⟩ := set
    exact .ellipse ha hb (lies hp ax ay) (lies hq bx b_y) radius
  | bezier ha hb hc hd hp hq hm hn =>
    simp only [Point.put, List.cons_append, List.nil_append, List.forall_mem_cons] at set
    obtain ⟨ax, ay, bx, b_y, cx, cy, dx, dy, -⟩ := set
    exact .bezier ha hb hc hd (lies hp ax ay) (lies hq bx b_y) (lies hm cx cy) (lies hn dx dy)

end Drafts

/-- The objects that are written have no parameter in common with each other or with those that are
read, and none has one of its own twice. -/
structure Separate (s : Sketch K) (reference managed : List ObjectId) : Prop where
  targets : managed.Pairwise fun o o' => ∀ h ∈ s.visited o, h ∉ s.visited o'
  sources : ∀ o ∈ managed, ∀ q ∈ reference, ∀ h ∈ s.visited o, h ∉ s.visited q
  ends : ∀ o ∈ managed, ∀ g, s.segment o = .ok g → g.a ≠ g.b

/-- So no parameter is written twice, neither through one target nor through two. -/
theorem Separate.nodup {s : Sketch K} {reference managed : List ObjectId}
    (apart : s.Separate reference managed) (w : s.WellFormed) (spread : s.Spread) :
    (managed.flatMap s.visited).Nodup := by
  refine List.nodup_flatMap.mpr ⟨fun o ho => ?_, apart.targets⟩
  cases he : s.entity? o with
  | none =>
    rw [visited, he]
    exact .nil
  | some e =>
    refine w.nodup_visited he ((spread e (List.mem_of_find?_eq_some he)).children fun g shape => ?_)
    exact apart.ends o ho g (asA_eq_ok_iff.mpr ⟨e, he, by rw [shape]; rfl⟩)

/-- A line may be read as well: then the sources alone stand apart from their targets. -/
theorem Separate.pairs {s : Sketch K} {line : ObjectId} {sources managed : List ObjectId}
    (apart : s.Separate (line :: sources) managed) (length : sources.length = managed.length) :
    s.Separate ((sources.zip managed).map Prod.fst) ((sources.zip managed).map Prod.snd) := by
  rw [List.map_fst_zip (Nat.le_of_eq length), List.map_snd_zip (Nat.le_of_eq length.symm)]
  exact ⟨apart.targets, fun o ho q hq => apart.sources o ho q (List.mem_cons_of_mem _ hq),
    apart.ends⟩

section Pairs

variable [Scalar K] {s t : Sketch K} {r : Reflection K}

/-- In `t` the second object of the pair is the mirror image of the first one in `s`. -/
def MirrorsPair (s t : Sketch K) (r : Reflection K) (pair : ObjectId × ObjectId) : Prop :=
  ∃ e f, s.entity? pair.1 = some e ∧ s.entity? pair.2 = some f ∧ s.Mirrors t r e.shape f.shape

/-- Targets that stand apart are mirror images in the end. -/
theorem mirrors_of_separate (w : s.WellFormed) (spread : s.Spread)
    {pairs : List (ObjectId × ObjectId)}
    (apart : s.Separate (pairs.map Prod.fst) (pairs.map Prod.snd))
    (h : outcome (pairs.forM fun pair => mirrorInto r pair.1 pair.2) s = (.ok (), t)) :
    s.Writes (fun h => ∃ pair ∈ pairs, h ∈ s.visited pair.2) t ∧
      ∀ pair ∈ pairs, s.MirrorsPair t r pair := by
  have reads : ∀ pair ∈ pairs, ∀ h, s.Carries pair.1 h →
      ¬ ∃ pair ∈ pairs, h ∈ s.visited pair.2 := by
    rintro pair hpair h carried ⟨other, hother, written⟩
    exact apart.sources _ (List.mem_map_of_mem hother) _ (List.mem_map_of_mem hpair) h written
      (mem_visited.mpr carried)
  have into : ∀ pair ∈ pairs, ∀ h, s.Carries pair.2 h → ∃ pair ∈ pairs, h ∈ s.visited pair.2 :=
    fun pair hpair h carried => ⟨pair, hpair, mem_visited.mpr carried⟩
  obtain ⟨ws, rfl, perm, all⟩ := exists_drafted w.toOrdered reads into [] (by simp) h
  rw [List.nil_append]
  have within : ∀ v ∈ ws, ∃ pair ∈ pairs, v.1 ∈ s.visited pair.2 := by
    intro v hv
    obtain ⟨o, ho, written⟩ := List.mem_flatMap.mp (perm.subset (List.mem_map_of_mem hv))
    obtain ⟨pair, hpair, rfl⟩ := List.mem_map.mp ho
    exact ⟨pair, hpair, written⟩
  have writes : s.Writes (fun h => ∃ pair ∈ pairs, h ∈ s.visited pair.2) (s.assign ws) :=
    writes_assign within
  have live : ∀ v ∈ ws, (s.param? v.1).isSome := by
    intro v hv
    obtain ⟨pair, -, written⟩ := within v hv
    exact w.live_of_carries (mem_visited.mp written)
  have set := value_assign live (perm.nodup_iff.mpr (apart.nodup w spread))
  refine ⟨writes, fun pair hpair => ?_⟩
  obtain ⟨us, sub, e, f, he, hf, drafts⟩ := all pair hpair
  exact ⟨e, f, he, hf, drafts.mirrors writes.entities fun v hv => set v (sub hv)⟩

end Pairs

end Sketch

namespace Constraint

variable [Scalar K] {c : Constraint K} {s : Sketch K}

/-- A mirror reads its line and the sources and writes as many targets, which are all its objects.
Where it succeeds, nothing has changed but values of parameters that the targets list. Where these
have no parameter in common with each other or with what is read, and all shapes have points that
differ as new ones do, each target is the mirror image of its source across the line. -/
theorem mirror_reflects (w : s.WellFormed) (mirror : c.kind = .mirror)
    (accepted : c.kind.arity.accepts c.objects.length)
    (split : c.kind.split? c.objects = some (c.reference, c.managed)) :
    ∃ line sources, c.reference = line :: sources ∧ c.objects = line :: (sources ++ c.managed) ∧
      sources.length = c.managed.length ∧
      ∀ t, outcome c.modify s = (.ok (), t) →
        s.Writes (fun h => ∃ o ∈ c.managed, h ∈ s.visited o) t ∧
        (s.Spread → s.Separate c.reference c.managed → ∃ r, s.reflection line = .ok r ∧
          ∀ pair ∈ sources.zip c.managed, ∃ e f, s.entity? pair.1 = some e ∧
            s.entity? pair.2 = some f ∧ s.Mirrors t r e.shape f.shape) := by
  rw [mirror] at accepted split
  obtain ⟨line, sources, reference, objects, length⟩ := Kind.split_mirror accepted split
  refine ⟨line, sources, reference, objects, length, fun t h => ⟨?_, fun spread apart => ?_⟩⟩
  · have writes := c.writes_modify s
    rw [h] at writes
    simpa only [Sketch.mem_visited] using writes
  · unfold modify Kind.modify at h
    have modifier : c.kind.isModifier := by rw [mirror]; rfl
    rw [if_pos modifier, reference] at h
    obtain ⟨r, _, asked, h⟩ := outcome_bind_eq_ok.mp (outcome_adapt_eq_ok.mp h)
    obtain ⟨across, rfl⟩ := Sketch.outcome_ask_eq_ok.mp asked
    rw [reference] at apart
    exact ⟨r, across, (Sketch.mirrors_of_separate w spread (apart.pairs length) h).2⟩

def pictured : Board Float :=
  [.addSegment ⟨0, 0⟩ ⟨0, 1⟩, .addSegment ⟨1, 0⟩ ⟨3, 0⟩, .addArc ⟨2, 5⟩ 1 0 1,
    .addSegment ⟨8, 0⟩ ⟨9, 0⟩, .addArc ⟨7, 7⟩ 2 1 2,
    .make .mirror [⟨3⟩, ⟨6⟩, ⟨10⟩, ⟨13⟩, ⟨17⟩] .empty .standard].foldl Act.run Board.empty

theorem kept_pictured : pictured.Kept := by
  refine Board.kept_of_reaches .empty (Board.reaches_foldl fun act hact b => ?_)
  simp only [List.mem_cons, List.not_mem_nil, or_false] at hact
  rcases hact with rfl | rfl | rfl | rfl | rfl | rfl <;> trivial

theorem mirror_reflects_pictured : ∃ c ∈ pictured.made, ∃ t r,
    outcome c.modify pictured.sketch = (.ok (), t) ∧ pictured.sketch.reflection ⟨3⟩ = .ok r ∧
    (∃ e f, pictured.sketch.entity? ⟨6⟩ = some e ∧ pictured.sketch.entity? ⟨13⟩ = some f ∧
      pictured.sketch.Mirrors t r e.shape f.shape) ∧
    ∃ e f, pictured.sketch.entity? ⟨10⟩ = some e ∧ pictured.sketch.entity? ⟨17⟩ = some f ∧
      pictured.sketch.Mirrors t r e.shape f.shape := by
  have listed : pictured.made.map (fun c => (c.kind, c.objects, c.reference, c.managed)) =
      [(.mirror, [⟨3⟩, ⟨6⟩, ⟨10⟩, ⟨13⟩, ⟨17⟩], [⟨3⟩, ⟨6⟩, ⟨10⟩], [⟨13⟩, ⟨17⟩])] := by decide +kernel
  obtain ⟨c, made, fields⟩ := List.map_eq_singleton_iff.mp listed
  simp only [Prod.mk.injEq] at fields
  obtain ⟨kind, objects, reference, managed⟩ := fields
  obtain ⟨line, sources, head, -, -, mirrors⟩ := mirror_reflects kept_pictured.wellFormed
    kind (by rw [kind, objects]; rfl) (by rw [kind, objects, reference, managed]; rfl)
  cases reference.symm.trans head
  have apart : pictured.sketch.Separate c.reference c.managed := by
    rw [reference, managed]
    refine ⟨by decide +kernel, by decide +kernel, fun o ho g hg => ?_⟩
    rcases List.mem_pair.mp ho with rfl | rfl
    · cases hg
      decide
    · cases hg
  have runs : pictured.made.map (fun c => (outcome c.modify pictured.sketch).1.toOption) =
      [some ()] := by decide +kernel
  rw [made, List.map_singleton, List.singleton_inj] at runs
  obtain ⟨t, run⟩ := exists_of_toOption runs
  obtain ⟨-, images⟩ := mirrors t run
  obtain ⟨r, across, all⟩ := images kept_pictured.spread apart
  rw [managed] at all
  exact ⟨c, by rw [made]; simp, t, r, run, across, all (⟨6⟩, ⟨13⟩) (by simp),
    all (⟨10⟩, ⟨17⟩) (by simp)⟩

end Constraint

end Drafting
