import Drafting.Workbench.Archive
import Drafting.Proofs.Action

namespace Drafting

open Sketch (SameShapes)

variable {K : Type} {s t u : Sketch K}

namespace Constraint

variable {c d : Constraint K}

def Apart (c d : Constraint K) : Prop := c.id ≠ d.id ∧ ∀ h ∈ c.auxiliary, h ∉ d.auxiliary

structure Held (c : Constraint K) (s : Sketch K) : Prop where
  numbered : c.id.val < s.constraintsMade
  live : ∀ h ∈ c.auxiliary, (s.param? h).isSome

theorem Installs.held (h : c.Installs s t) : c.Held t := ⟨h.numbered.2, h.params.live⟩

theorem Held.installs (held : d.Held s) (h : c.Installs s t) : d.Held t where
  numbered := by
    have first := held.numbered
    obtain ⟨old, new⟩ := h.numbered
    omega
  live := fun k hk => h.params.keeps (held.live k hk)

theorem Held.unchanged (held : d.Held s) (h : s.Unchanged t) : d.Held t where
  numbered := Nat.lt_of_lt_of_le held.numbered h.constraintsMade
  live := by
    intro k hk
    rw [h.params]
    exact held.live k hk

/-- What is made later is apart from what is there. -/
theorem Held.apart (held : d.Held s) (h : c.Installs s t) : c.Apart d := by
  refine ⟨fun same => ?_, fun k hk hd => ?_⟩
  · have first := held.numbered
    have later := h.numbered.1
    rw [same] at later
    omega
  · exact h.params.apart (held.live k hd) hk

theorem unchanged_release (d : Constraint K) (h : s.Unchanged t) :
    (d.release s).Unchanged (d.release t) where
  entities := by rw [d.entities_release, d.entities_release, h.entities]
  lastObject := h.lastObject
  params := by
    intro k
    rw [d.param?_release, d.param?_release, h.params k]
  constraintsMade := h.constraintsMade

/-- Releasing another constraint, before or after, does not show. -/
theorem Installs.release_other (h : c.Installs s t) (apart : c.Apart d) :
    c.Installs (d.release s) (d.release t) where
  entities := by
    rw [d.entities_release, d.entities_release, h.entities, List.map_map, List.map_map]
    refine List.map_congr_left fun e _ => ?_
    by_cases hm : e.id ∈ c.managed
    · have stays : ¬(e.id ∈ d.managed ∧ some c.id = some d.id) :=
        fun h => apart.1 (Option.some.inj h.2)
      simp only [Function.comp_apply, if_pos hm, if_neg stays]
      split
      · rfl
      · rfl
    · simp only [Function.comp_apply, if_neg hm]
      split
      · rfl
      · rfl
  lastObject := h.lastObject
  unowned := by
    intro o ho
    exact Sketch.unowned_release d.managed d.id (h.unowned o ho)
  params := h.params.eraseAll_both apart.2
  numbered := h.numbered

end Constraint

namespace Workbench

variable {ms ns : List (NamedConstraint K)} {n m : NamedConstraint K}

/-- The constraints were made in their order, with nothing else in between. -/
inductive InstallsAll : List (NamedConstraint K) → Sketch K → Sketch K → Prop where
  | nil {s t : Sketch K} (same : s.Unchanged t) : InstallsAll [] s t
  | snoc {ns : List (NamedConstraint K)} {s t u : Sketch K} (n : NamedConstraint K)
      (before : InstallsAll ns s t) (last : n.constraint.Installs t u) : InstallsAll (ns ++ [n]) s u

namespace InstallsAll

theorem keeps {d : Constraint K} (h : InstallsAll ns s t) (held : d.Held s) : d.Held t := by
  induction h with
  | nil same => exact held.unchanged same
  | snoc n _ last ih => exact (ih held).installs last

theorem held (h : InstallsAll ns s t) : ∀ n ∈ ns, n.constraint.Held t := by
  induction h with
  | nil same => simp
  | snoc n _ last ih =>
    intro m hm
    rcases List.mem_append.mp hm with hm | hm
    · exact (ih m hm).installs last
    · rw [List.mem_singleton.mp hm]
      exact last.held

theorem of_unchanged (same : s.Unchanged t) (h : InstallsAll ns t u) : InstallsAll ns s u := by
  induction h with
  | nil same' => exact .nil (same.trans same')
  | snoc n _ last ih => exact .snoc n (ih same) last

end InstallsAll

theorem unchanged_releaseAll (ms : List (NamedConstraint K)) (h : s.Unchanged t) :
    (releaseAll ms s).Unchanged (releaseAll ms t) := by
  induction ms generalizing s t with
  | nil => exact h
  | cons m ms ih => exact ih (m.constraint.unchanged_release h)

theorem installs_releaseAll {c : Constraint K} (h : c.Installs s t)
    (apart : ∀ m ∈ ms, c.Apart m.constraint) : c.Installs (releaseAll ms s) (releaseAll ms t) := by
  induction ms generalizing s t with
  | nil => exact h
  | cons m ms ih =>
    refine ih (h.release_other (apart m (by simp))) ?_
    exact fun k hk => apart k (List.mem_cons_of_mem _ hk)

/-- Releasing what was there before leaves what was made since. -/
theorem InstallsAll.release_others (h : InstallsAll ns s t)
    (held : ∀ m ∈ ms, m.constraint.Held s) :
    InstallsAll ns (releaseAll ms s) (releaseAll ms t) := by
  induction h with
  | nil same => exact .nil (unchanged_releaseAll ms same)
  | snoc n before last ih =>
    refine .snoc n (ih held) (installs_releaseAll last fun m hm => ?_)
    exact (before.keeps (held m hm)).apart last

/-- Releasing what was made since leaves what was there before. -/
theorem InstallsAll.undone (o : s.Ordered) (h : InstallsAll ns s t) :
    s.Unchanged (releaseAll ns t) := by
  induction h with
  | nil same => exact same
  | snoc n before last ih =>
    have earlier := ih o
    have installed := installs_releaseAll last fun m hm => (before.held m hm).apart last
    have undone := installed.release (o.sameShapes earlier.sameShapes).keyed
    rw [releaseAll, List.foldl_append]
    exact earlier.trans undone

/-- Where a record cannot be read, those before it are released. -/
theorem outcome_readAll_cons [Scalar K] (made : List (NamedConstraint K))
    (first : SavedConstraint K) (rest : List (SavedConstraint K)) (s : Sketch K) :
    outcome (readAll made (first :: rest)) s =
      match outcome (Constraint.read first.record) s with
      | (.ok c, t) => outcome (readAll (made ++ [⟨first.name, c⟩]) rest) t
      | (.error e, t) => (.error e, releaseAll made t) := by
  rw [readAll, outcome_bind_ok (outcome_liftM _ s)]
  have run : (Constraint.read first.record).run.run s =
      outcome (Constraint.read first.record) s := rfl
  rw [run]
  cases outcome (Constraint.read first.record) s with
  | mk answer t => cases answer <;> rfl

/-- All records make their constraints, or none is left. -/
theorem ends_readAll [Scalar K] (saved : List (SavedConstraint K)) (o : s.Ordered)
    (made : InstallsAll ns s t) :
    Ends (fun loaded u => InstallsAll loaded s u) (fun _ u => s.Unchanged u)
      (outcome (readAll ns saved) t) := by
  induction saved generalizing ns t with
  | nil => exact made
  | cons first rest ih =>
    have leaves := Constraint.leaves_read first.record t
    rw [outcome_readAll_cons]
    cases h : outcome (Constraint.read first.record) t with
    | mk answer u =>
      rw [h] at leaves
      cases answer with
      | ok c => exact ih (made.snoc ⟨first.name, c⟩ leaves)
      | error e => exact (made.undone o).trans (unchanged_releaseAll ns leaves)

structure Remarked (s t : Sketch K) : Prop extends s.SameShapes t where
  params : t.params = s.params
  constraintsMade : t.constraintsMade = s.constraintsMade

theorem Remarked.refl (s : Sketch K) : Remarked s s := ⟨.refl s, rfl, rfl⟩

theorem Remarked.trans (h : Remarked s t) (h' : Remarked t u) : Remarked s u :=
  ⟨h.toSameShapes.trans h'.toSameShapes, h'.params.trans h.params,
    h'.constraintsMade.trans h.constraintsMade⟩

theorem remarked_mark (s : Sketch K) (ids : List ObjectId) (which : Entity → Bool)
    (o : Option ConstraintId) : Remarked s (s.mark ids which o) :=
  ⟨s.sameShapes_mark ids which o, rfl, rfl⟩

theorem remarked_stepAside (ns : List (NamedConstraint K)) (s : Sketch K) :
    Remarked s (stepAside ns s) := by
  induction ns generalizing s with
  | nil => exact .refl s
  | cons n ns ih => exact (remarked_mark s _ _ none).trans (ih _)

theorem ownedBy_stepAside (owned : s.OwnedBy (stakesOf ns))
    (distinct : (stakesOf ns).Pairwise fun k m => k.id ≠ m.id) :
    (stepAside ns s).OwnedBy [] := by
  induction ns generalizing s with
  | nil => exact owned
  | cons n ns ih =>
    obtain ⟨other, rest⟩ := List.pairwise_cons.mp distinct
    refine ih (Sketch.OwnedBy.release (l := []) owned ?_) rest
    exact fun m hm => Ne.symm (other m hm)

/-- What stepped aside can step back: every claim is granted. Those in `l` stepped back already. -/
theorem outcome_stepBack {l : List Stake} (shapes : s.SameShapes t)
    (all : s.OwnedBy (l ++ stakesOf ns)) (owned : t.OwnedBy l)
    (distinct : (l ++ stakesOf ns).Pairwise fun k m => k.id ≠ m.id) :
    ∃ u, outcome (stepBack ns) t = (.ok (), u) ∧ Remarked t u ∧ u.OwnedBy (l ++ stakesOf ns) := by
  -- by induction on those that are still aside, while the marks set are just those of `l`
  induction ns generalizing t l with
  | nil =>
    refine ⟨t, rfl, .refl t, ?_⟩
    simpa [stakesOf] using owned
  | cons n ns ih =>
    have later : l ++ stakesOf (n :: ns) = (l ++ [n.constraint.stake]) ++ stakesOf ns := by
      simp [stakesOf]
    have free : ∀ id ∈ n.constraint.managed, t.owner id = .ok none := fun id hid =>
      Sketch.OwnedBy.free (k := n.constraint.stake) shapes all (fun o i marked => by
        obtain ⟨m, hm, -, ho⟩ := (owned o i).mp marked
        exact ⟨m, hm, ho⟩) distinct hid
    have claimed := Sketch.claim_eq_ok_iff.mpr
      ⟨free, Eq.refl (t.mark n.constraint.managed (fun _ => true) (some n.constraint.id))⟩
    have asked := (Sketch.outcome_ask (fun s : Sketch K =>
      s.claim n.constraint.managed n.constraint.id) t).trans (congrArg (·, t) claimed)
    have step : outcome (stepBack (n :: ns)) t = outcome (stepBack ns)
        (t.mark n.constraint.managed (fun _ => true) (some n.constraint.id)) := by
      refine outcome_bind_ok (a := PUnit.unit) ?_ _
      exact outcome_bind_ok asked _
    have marked := remarked_mark t n.constraint.managed (fun _ => true) (some n.constraint.id)
    rw [later] at all distinct
    obtain ⟨u, hu, remarked, taken⟩ := ih (shapes.trans marked.toSameShapes) all
      (owned.claim free (t.entities_claimed _ _)) distinct
    refine ⟨u, step.trans hu, marked.trans remarked, ?_⟩
    rw [later]
    exact taken

theorem remarked_releaseAll (ms : List (NamedConstraint K)) (h : Remarked s t) :
    Remarked (releaseAll ms s) (releaseAll ms t) := by
  induction ms generalizing s t with
  | nil => exact h
  | cons m ms ih =>
    have before := m.constraint.sameShapes_release s
    have after := m.constraint.sameShapes_release t
    refine ih ⟨(before.symm.trans h.toSameShapes).trans after, ?_, h.constraintsMade⟩
    simp only [Constraint.release, Sketch.removeParams, Sketch.release, Sketch.mark, h.params]

theorem ownedBy_releaseAll (ms : List (NamedConstraint K)) (h : s.OwnedBy []) :
    (releaseAll ms s).OwnedBy [] := by
  induction ms generalizing s with
  | nil => exact h
  | cons m ms ih =>
    refine ih (Sketch.OwnedBy.congr (s := s.release m.constraint.managed m.constraint.id) ?_ rfl)
    intro o i
    have released := s.owned_release m.constraint.managed m.constraint.id o i
    rw [h o i] at released
    simpa using released

section Load

variable {b : Workbench K}

theorem Sound.stepAside (sound : Sound b) : (stepAside b.constraints b.sketch).OwnedBy [] :=
  ownedBy_stepAside sound.owned sound.distinct

theorem Sound.held (sound : Sound b) : ∀ n ∈ b.constraints, n.constraint.Held b.sketch := by
  intro n hn
  have staked : n.constraint.stake ∈ b.stakes := List.mem_map_of_mem hn
  refine ⟨sound.numbered _ staked, fun h hh => (sound.listed.live h).mpr ?_⟩
  exact List.mem_append_right _ (List.mem_flatMap.mpr ⟨_, staked, hh⟩)

/-- Constraints are removed one by one. -/
theorem changes_removeAll (ns : List (NamedConstraint K)) (hb : b.constraints = ns) :
    Changes b { b with sketch := releaseAll ns b.sketch, constraints := [] } := by
  induction ns generalizing b with
  | nil =>
    refine .single (.keep (.refl _) ?_)
    rw [stakes, stakes, hb]
  | cons n ns ih =>
    have first : Change b
        { b with sketch := n.constraint.release b.sketch, constraints := ns } := by
      refine .remove n.constraint [] (stakesOf ns) ?_ (.refl _) rfl
      rw [stakes, hb]
      rfl
    exact .head first (ih rfl)

/-- Constraints are added one by one. -/
theorem changes_installAll (b : Workbench K) (h : InstallsAll ns s t) :
    Changes { b with sketch := s, constraints := [] }
      { b with sketch := t, constraints := ns } := by
  induction h with
  | nil same => exact .single (.keep same rfl)
  | snoc n _ last ih =>
    refine .tail ih (.install n.constraint last ?_)
    simp [stakes, stakesOf]

/-- Where reading failed, the marks are put back as they were. -/
theorem unchanged_stepBack (sound : Sound b)
    (same : (Workbench.stepAside b.constraints b.sketch).Unchanged u) :
    ∃ v, outcome (stepBack b.constraints) u = (.ok (), v) ∧ b.sketch.Unchanged v := by
  have aside := remarked_stepAside b.constraints b.sketch
  have shapes := aside.toSameShapes.trans same.sameShapes
  obtain ⟨v, hv, back, owned⟩ := outcome_stepBack (l := []) shapes sound.owned
    (sound.stepAside.congr same.entities) sound.distinct
  refine ⟨v, hv, ?_, ?_, ?_, ?_⟩
  · exact sound.owned.unique sound.ordered (shapes.trans back.toSameShapes) owned
  · exact (shapes.trans back.toSameShapes).lastObject
  · intro h
    rw [Sketch.param?, back.params]
    refine (same.params h).trans ?_
    rw [Sketch.param?, aside.params]
    rfl
  · rw [back.constraintsMade, ← aside.constraintsMade]
    exact same.constraintsMade

/-- Where reading succeeded, it is as if the old constraints had been removed before. -/
theorem changes_replace (sound : Sound b)
    (h : InstallsAll ns (Workbench.stepAside b.constraints b.sketch) u) :
    Changes b { b with sketch := releaseAll b.constraints u, constraints := ns } := by
  have removed := changes_removeAll b.constraints rfl
  have aside := remarked_stepAside b.constraints b.sketch
  have held : ∀ n ∈ b.constraints,
      n.constraint.Held (Workbench.stepAside b.constraints b.sketch) := by
    intro n hn
    have first := sound.held n hn
    refine ⟨?_, fun k hk => ?_⟩
    · rw [aside.constraintsMade]
      exact first.numbered
    · rw [Sketch.param?, aside.params]
      exact first.live k hk
  have late := remarked_releaseAll b.constraints aside
  have ordered := (removed.sound sound).ordered
  have same : (releaseAll b.constraints b.sketch).Unchanged
      (releaseAll b.constraints (Workbench.stepAside b.constraints b.sketch)) := by
    refine ⟨?_, late.lastObject, fun k => ?_, Nat.le_of_eq late.constraintsMade.symm⟩
    · exact (removed.sound sound).owned.unique ordered late.toSameShapes
        (ownedBy_releaseAll _ sound.stepAside)
    · rw [Sketch.param?, late.params]
      rfl
  have installed := changes_installAll b ((h.release_others held).of_unchanged same)
  exact Relation.ReflTransGen.trans removed installed

variable [Scalar K] [Written K]

variable {text : String} {saved : List (SavedConstraint K)}

/-- Loading is reading with the old marks off. -/
theorem outcome_load (b : Workbench K) (h : readSaved? text = some saved) :
    outcome (load text) b =
      match outcome (readAll [] saved) (Workbench.stepAside b.constraints b.sketch) with
      | (.ok loaded, u) => (.ok (),
          { b with
            constraints := loaded
            sketch := releaseAll b.constraints u
            history := b.history ++ [.loaded loaded.length] })
      | (.error e, u) =>
        outcome (editSketch .sketch (stepBack b.constraints) >>= fun _ =>
          throw (.constraint e)) { b with sketch := u } := by
  have cleared : outcome (onSketch (modify (Workbench.stepAside b.constraints))) b =
      (.ok (), { b with sketch := Workbench.stepAside b.constraints b.sketch }) := rfl
  have tried : outcome (onSketch (readAll [] saved).run)
      { b with sketch := Workbench.stepAside b.constraints b.sketch } =
      (.ok (outcome (readAll [] saved) (Workbench.stepAside b.constraints b.sketch)).1,
        { b with sketch :=
          (outcome (readAll [] saved) (Workbench.stepAside b.constraints b.sketch)).2 }) := rfl
  unfold load
  simp only [h]
  rw [outcome_bind_ok (outcome_get b), outcome_bind_ok cleared, outcome_bind_ok tried]
  cases outcome (readAll [] saved) (Workbench.stepAside b.constraints b.sketch) with
  | mk answer u => cases answer <;> rfl

omit [Written K] in
/-- The old constraints still hold their parameters when the new ones are made. -/
theorem ends_readAside (sound : Sound b) (saved : List (SavedConstraint K)) :
    Ends (fun loaded u => InstallsAll loaded (Workbench.stepAside b.constraints b.sketch) u)
      (fun _ u => (Workbench.stepAside b.constraints b.sketch).Unchanged u)
      (outcome (readAll [] saved) (Workbench.stepAside b.constraints b.sketch)) :=
  ends_readAll saved
    (sound.ordered.sameShapes (remarked_stepAside b.constraints b.sketch).toSameShapes)
    (.nil (.refl _))

/-- A text that holds no saved constraints is refused before anything is touched. -/
theorem load_of_unreadable (b : Workbench K) (h : readSaved? (K := K) text = none) :
    outcome (load text) b = (.error .serialization, b) := by
  unfold load
  simp only [h]
  rfl

/-- Where reading failed, so does loading, for the same reason, and nothing shows. -/
theorem load_of_error (sound : Sound b) (h : readSaved? text = some saved) {e : ConstraintError}
    (run : outcome (readAll [] saved) (Workbench.stepAside b.constraints b.sketch) =
      (.error e, u)) :
    ∃ v, outcome (load text) b = (.error (.constraint e), { b with sketch := v }) ∧
      b.sketch.Unchanged v := by
  have read := ends_readAside sound saved
  rw [run] at read
  obtain ⟨v, hv, same⟩ := unchanged_stepBack sound read
  refine ⟨v, ?_, same⟩
  have stepped : outcome (editSketch .sketch (stepBack b.constraints))
      { b with sketch := u } = (.ok (), { b with sketch := v }) := by
    rw [outcome_editSketch, hv]
    rfl
  simp only [outcome_load b h, run]
  rw [outcome_bind_ok stepped]
  rfl

theorem evolves_load (text : String) : Leads (Evolves (K := K)) (load text) := by
  intro b sound
  cases h : readSaved? (K := K) text with
  | none =>
    rw [load_of_unreadable b h]
    exact .refl
  | some saved =>
    cases run : outcome (readAll [] saved) (Workbench.stepAside b.constraints b.sketch) with
    | mk answer u =>
      cases answer with
      | ok loaded =>
        have read := ends_readAside sound saved
        rw [run] at read
        have replaced := changes_replace sound read
        simp only [outcome_load b h, run]
        exact Relation.ReflTransGen.trans replaced
          (evolves_log (.loaded loaded.length) _ (replaced.sound sound))
      | error e =>
        obtain ⟨v, failed, same⟩ := load_of_error sound h run
        rw [failed]
        exact .single (.keep same rfl)

end Load

end Workbench

end Drafting
