import Drafting.Proofs.Copying

namespace Drafting

variable {K : Type}

namespace Sketch

section Mismatch

variable {s u : Sketch K} {pair : ObjectId × ObjectId} {e f : Entity} {error : SketchError}

/-- Why the first object of a pair cannot be mirrored onto the second: one of them is not there, or
they are of two kinds. -/
def mismatch? (s : Sketch K) (pair : ObjectId × ObjectId) : Option SketchError :=
  match s.entity pair.1, s.entity pair.2 with
  | .error e, _ => some e
  | .ok _, .error e => some e
  | .ok e, .ok f =>
    if e.shape.kind = f.shape.kind then none else some (.kindMismatch e.shape.kind f.shape.kind)

/-- The pairs before the first one that cannot be mirrored. -/
def matched (s : Sketch K) (pairs : List (ObjectId × ObjectId)) : List (ObjectId × ObjectId) :=
  pairs.takeWhile fun pair => (s.mismatch? pair).isNone

theorem mismatch?_eq_none_iff : s.mismatch? pair = none ↔ ∃ e f,
    s.entity? pair.1 = some e ∧ s.entity? pair.2 = some f ∧ e.shape.kind = f.shape.kind := by
  simp only [← entity_eq_ok_iff]
  unfold mismatch?
  cases s.entity pair.1 <;> cases s.entity pair.2 <;> simp

/-- Writing values gives no object another shape, so that a mismatch is seen from the start. -/
theorem mismatch?_congr (same : u.entities = s.entities) : u.mismatch? pair = s.mismatch? pair := by
  rw [mismatch?, mismatch?, entity_congr same, entity_congr same]

end Mismatch

section Mirroring

variable [Scalar K] {s t u : Sketch K} {r : Reflection K} {pair : ObjectId × ObjectId}
  {error : SketchError}

/-- Mirroring fails with what is wrong with the pair, before it writes anything. -/
theorem outcome_mirrorInto_of_mismatch (h : s.mismatch? pair = some error) :
    outcome (mirrorInto r pair.1 pair.2) s = (.error error, s) := by
  unfold mismatch? at h
  unfold mirrorInto
  cases source : s.entity pair.1 with
  | error e =>
    rw [source] at h
    cases h
    exact outcome_bind_error (by rw [outcome_ask, source]) _
  | ok e =>
    rw [outcome_bind_ok (outcome_ask_eq_ok.mpr ⟨source, rfl⟩)]
    cases target : s.entity pair.2 with
    | error e =>
      rw [source, target] at h
      cases h
      exact outcome_bind_error (by rw [outcome_ask, target]) _
    | ok f =>
      rw [outcome_bind_ok (outcome_ask_eq_ok.mpr ⟨target, rfl⟩)]
      rw [source, target] at h
      obtain ⟨number, x, owner⟩ := e
      obtain ⟨number', y, owner'⟩ := f
      by_cases kind : x.kind = y.kind
      · simp [kind] at h
      · simp only [kind, if_false, Option.some.injEq] at h
        cases h
        cases x <;> cases y <;> first | exact absurd rfl kind | rfl

/-- Mirroring pairs in turn mirrors those before the first mismatch, and fails with that. -/
theorem outcome_mirrorAll (o : s.Ordered) (pairs : List (ObjectId × ObjectId))
    (same : u.entities = s.entities) :
    ∃ t, outcome ((s.matched pairs).forM fun pair => mirrorInto r pair.1 pair.2) u = (.ok (), t) ∧
      outcome (pairs.forM fun pair => mirrorInto r pair.1 pair.2) u =
        ((pairs.findSome? s.mismatch?).elim (.ok ()) .error, t) := by
  induction pairs generalizing u with
  | nil => exact ⟨u, rfl, rfl⟩
  | cons pair pairs ih =>
    rw [matched, List.takeWhile_cons, List.findSome?_cons]
    cases found : s.mismatch? pair with
    | some error =>
      -- what is wrong with a pair does not depend on what was written before
      have fails : u.mismatch? pair = some error := (mismatch?_congr same).trans found
      exact ⟨u, rfl, outcome_bind_error (outcome_mirrorInto_of_mismatch fails) _⟩
    | none =>
      obtain ⟨e, f, he, hf, kind⟩ := mismatch?_eq_none_iff.mp found
      obtain ⟨_, v, run, same⟩ := completes_mirrorInto r o he hf kind u same
      obtain ⟨t, first, all⟩ := ih same
      exact ⟨t, (outcome_bind_ok run _).trans first, (outcome_bind_ok run _).trans all⟩

/-- Targets that stand apart are left as they were just if they were mirror images before. -/
theorem unmoved_iff (w : s.WellFormed) (spread : s.Spread) {pairs : List (ObjectId × ObjectId)}
    (apart : s.Separate (pairs.map Prod.fst) (pairs.map Prod.snd))
    (h : outcome (pairs.forM fun pair => mirrorInto r pair.1 pair.2) s = (.ok (), t)) :
    (∀ h, t.value h = s.value h) ↔ ∀ pair ∈ pairs, s.MirrorsPair s r pair := by
  obtain ⟨writes, images⟩ := mirrors_of_separate w spread apart h
  constructor
  · intro values pair hpair
    obtain ⟨e, f, he, hf, image⟩ := images pair hpair
    exact ⟨e, f, he, hf, image.congr writes.entities.symm fun h => (values h).symm⟩
  · intro before h
    by_cases written : ∃ pair ∈ pairs, h ∈ s.visited pair.2
    · obtain ⟨pair, hpair, hh⟩ := written
      obtain ⟨e, f, he, hf, image⟩ := images pair hpair
      obtain ⟨e', f', he', hf', image'⟩ := before pair hpair
      cases he.symm.trans he'
      cases hf.symm.trans hf'
      obtain ⟨hs, params, listed⟩ := w.exists_listed hf
      rw [visited_of_objectParams params] at hh
      exact image.values image' listed writes.entities rfl h hh
    · rw [value, value, writes.others h written]

/-- However far mirroring comes, it writes parameters of the targets alone. -/
theorem writes_mirrorAll {pairs : List (ObjectId × ObjectId)} {a : Except SketchError Unit}
    (h : outcome (pairs.forM fun pair => mirrorInto r pair.1 pair.2) s = (a, t)) :
    s.Writes (fun h => ∃ pair ∈ pairs, h ∈ s.visited pair.2) t := by
  have leads : Leads (Writing s fun h => ∃ pair ∈ pairs, h ∈ s.visited pair.2)
      (pairs.forM fun pair => mirrorInto r pair.1 pair.2) :=
    Leads.forM Writing.refl Writing.trans fun pair hpair =>
      leads_mirrorInto r pair.1 fun h carried => ⟨pair, hpair, mem_visited.mpr carried⟩
  have writes := leads s rfl
  rw [h] at writes
  exact writes

end Mirroring

end Sketch

namespace Constraint

variable [Scalar K] {c : Constraint K} {s t : Sketch K} {error : ConstraintError}

/-- A mirror that fails has failed at its line, and then has written nothing, or at its first pair
that cannot be mirrored. It has then mirrored the pairs before, and nothing tells that from a mirror
of these alone. So if they stand apart, every value is what it was just if each of their targets was
the mirror image of its source already. -/
theorem mirror_halts (w : s.WellFormed) (mirror : c.kind = .mirror)
    (h : outcome c.modify s = (.error error, t)) :
    ∃ line sources, c.reference = line :: sources ∧
      ((∃ fault, s.reflection line = .error fault ∧ error = .ofSketch fault ∧ t = s) ∨
        ∃ r fault, s.reflection line = .ok r ∧
          (sources.zip c.managed).findSome? s.mismatch? = some fault ∧ error = .ofSketch fault ∧
          outcome ((s.matched (sources.zip c.managed)).forM fun pair =>
            Sketch.mirrorInto r pair.1 pair.2) s = (.ok (), t) ∧
          s.Writes (fun h => ∃ pair ∈ s.matched (sources.zip c.managed), h ∈ s.visited pair.2) t ∧
          (s.Spread → s.Separate ((s.matched (sources.zip c.managed)).map Prod.fst)
              ((s.matched (sources.zip c.managed)).map Prod.snd) →
            ((∀ h, t.value h = s.value h) ↔
              ∀ pair ∈ s.matched (sources.zip c.managed), s.MirrorsPair s r pair))) := by
  have modifier : c.kind.isModifier := by rw [mirror]; rfl
  unfold modify Kind.modify at h
  rw [if_pos modifier] at h
  cases reference : c.reference with
  | nil =>
    rw [reference] at h
    cases h
  | cons line sources =>
    rw [reference, outcome_adapt] at h
    refine ⟨line, sources, rfl, ?_⟩
    cases across : s.reflection line with
    | error fault =>
      rw [outcome_bind_error (by rw [Sketch.outcome_ask, across])] at h
      cases h
      exact .inl ⟨fault, rfl, rfl, rfl⟩
    | ok r =>
      rw [outcome_bind_ok (Sketch.outcome_ask_eq_ok.mpr ⟨across, rfl⟩)] at h
      obtain ⟨u, first, all⟩ :=
        Sketch.outcome_mirrorAll (r := r) w.toOrdered (sources.zip c.managed) rfl
      rw [all] at h
      cases found : (sources.zip c.managed).findSome? s.mismatch? with
      | none =>
        rw [found] at h
        cases h
      | some fault =>
        rw [found] at h
        cases h
        exact .inr ⟨r, fault, rfl, rfl, rfl, first, Sketch.writes_mirrorAll first,
          fun spread apart => Sketch.unmoved_iff w spread apart first⟩

def stalled : Board Float :=
  [.addSegment ⟨0, 0⟩ ⟨0, 1⟩, .addPoint ⟨1, 1⟩, .addPoint ⟨2, 2⟩, .addPoint ⟨5, 5⟩,
    .addCircle ⟨7, 7⟩ 1, .make .mirror [⟨3⟩, ⟨4⟩, ⟨5⟩, ⟨6⟩, ⟨8⟩] .empty .standard].foldl Act.run
      Board.empty

theorem kept_stalled : stalled.Kept := by
  refine Board.kept_of_reaches .empty (Board.reaches_foldl fun act hact b => ?_)
  simp only [List.mem_cons, List.not_mem_nil, or_false] at hact
  rcases hact with rfl | rfl | rfl | rfl | rfl | rfl <;> trivial

theorem exists_stalled : ∃ c t, stalled.made = [c] ∧ c.kind = .mirror ∧
    c.objects = [⟨3⟩, ⟨4⟩, ⟨5⟩, ⟨6⟩, ⟨8⟩] ∧ c.reference = [⟨3⟩, ⟨4⟩, ⟨5⟩] ∧ c.managed = [⟨6⟩, ⟨8⟩] ∧
    outcome c.modify stalled.sketch = (.error (.sketch (.kindMismatch .point .circle)), t) ∧
    (t.value ⟨11, 1⟩).toBits ≠ (stalled.sketch.value ⟨11, 1⟩).toBits := by
  have listed : stalled.made.map (fun c => (c.kind, c.objects, c.reference, c.managed)) =
      [(.mirror, [⟨3⟩, ⟨4⟩, ⟨5⟩, ⟨6⟩, ⟨8⟩], [⟨3⟩, ⟨4⟩, ⟨5⟩], [⟨6⟩, ⟨8⟩])] := by decide +kernel
  obtain ⟨c, made, fields⟩ := List.map_eq_singleton_iff.mp listed
  simp only [Prod.mk.injEq] at fields
  obtain ⟨kind, objects, reference, managed⟩ := fields
  have fails : ∀ c ∈ stalled.made, (outcome c.modify stalled.sketch).1 =
      .error (.sketch (.kindMismatch .point .circle)) := by decide +kernel
  have moves : ∀ c ∈ stalled.made, ((outcome c.modify stalled.sketch).2.value ⟨11, 1⟩).toBits ≠
      (stalled.sketch.value ⟨11, 1⟩).toBits := by decide +kernel
  obtain ⟨t, run⟩ := exists_left (fails c (by simp [made]))
  have moved := moves c (by simp [made])
  rw [run] at moved
  exact ⟨c, t, made, kind, objects, reference, managed, run, moved⟩

theorem mirror_halts_stalled : ∃ c ∈ stalled.made, ∃ t r,
    outcome c.modify stalled.sketch = (.error (.sketch (.kindMismatch .point .circle)), t) ∧
    stalled.sketch.reflection ⟨3⟩ = .ok r ∧
    outcome ([(⟨4⟩, ⟨6⟩)].forM fun pair => Sketch.mirrorInto r pair.1 pair.2) stalled.sketch =
      (.ok (), t) ∧
    ¬ stalled.sketch.MirrorsPair stalled.sketch r (⟨4⟩, ⟨6⟩) := by
  obtain ⟨c, t, made, kind, -, reference, managed, run, moved⟩ := exists_stalled
  obtain ⟨line, sources, head, ended⟩ := mirror_halts kept_stalled.wellFormed kind run
  cases reference.symm.trans head
  have across : (stalled.sketch.reflection ⟨3⟩).toOption.isSome := by decide +kernel
  rcases ended with ⟨fault, fails, -⟩ | ⟨r, -, reflected, -, -, first, -, unmoved⟩
  · rw [fails] at across
    cases across
  · have matched : stalled.sketch.matched ([⟨4⟩, ⟨5⟩].zip [⟨6⟩, ⟨8⟩]) = [(⟨4⟩, ⟨6⟩)] := by
      decide +kernel
    rw [managed, matched] at first unmoved
    have apart : stalled.sketch.Separate [⟨4⟩] [⟨6⟩] := by
      refine ⟨by simp, by decide +kernel, fun o ho g hg => ?_⟩
      cases List.mem_singleton.mp ho
      cases hg
    refine ⟨c, by simp [made], t, r, run, reflected, first, fun image => moved ?_⟩
    rw [(unmoved kept_stalled.spread apart).mpr (List.forall_mem_singleton.mpr image)]

/-- A failure does change something: the point is moved before the mirror comes to the circle. -/
theorem mirror_halts_halfway :
    ¬∀ (s : Sketch Float) (c : Constraint Float), s.WellFormed → c.kind = .mirror →
      c.kind.arity.accepts c.objects.length →
        c.kind.split? c.objects = some (c.reference, c.managed) →
          ∀ error t, outcome c.modify s = (.error error, t) → ∀ h, t.value h = s.value h := by
  intro unchanged
  obtain ⟨c, t, -, kind, objects, reference, managed, run, moved⟩ := exists_stalled
  refine moved ?_
  rw [unchanged stalled.sketch c kept_stalled.wellFormed kind (by rw [kind, objects]; rfl)
    (by rw [kind, objects, reference, managed]; rfl) _ t run]

end Constraint

end Drafting
