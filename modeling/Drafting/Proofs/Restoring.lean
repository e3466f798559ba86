import Drafting.Double
import Drafting.Proofs.Recording
import Drafting.Proofs.Upholding

namespace Drafting

open Constant (Raw)

variable {K : Type}

theorem Kind.ofId?_id (k : Kind) : ofId? k.id = some k := by
  cases k <;> decide +kernel

namespace Constraint

variable {s t : Sketch K} {c d : Constraint K}

/-- The second constraint is the first one made anew. -/
structure Renews (c d : Constraint K) : Prop where
  kind : d.kind = c.kind
  objects : d.objects = c.objects
  constants : d.constants = c.constants
  managed : d.managed = c.managed
  brought : d.auxiliary.length = c.auxiliary.length

/-- A constraint that stands can be read back where its targets are free. -/
theorem Stands.renews [Scalar K] (stands : c.Stands s) (g : s.Grounded)
    (free : ∀ id ∈ c.managed, s.owner id = .ok none) :
    ∃ d t, outcome (read c.record) s = (.ok d, t) ∧ c.Renews d := by
  rw [stands.targets] at free
  obtain ⟨d, t, made⟩ := exists_make c.constants .standard g stands.suits free
  obtain ⟨kind, objects, constants, -⟩ := fields_make made
  have formed := formed_make g made
  refine ⟨d, t, read_eq_ok.mpr ⟨stands.known, c.kind, c.kind.ofId?_id, made⟩, kind, objects,
    constants, ?_, ?_⟩
  · rw [formed.targets, stands.targets, kind, objects]
  · rw [formed.auxiliary, stands.auxiliary, kind]

end Constraint

def NamedConstraint.Renews (m n : NamedConstraint K) : Prop :=
  n.name = m.name ∧ m.constraint.Renews n.constraint

theorem NamedConstraint.Renews.saved {m n : NamedConstraint K} (h : m.Renews n) :
    n.saved = m.saved := by
  rw [NamedConstraint.saved, NamedConstraint.saved, Constraint.record, Constraint.record, h.1,
    h.2.kind, h.2.objects, h.2.constants]

namespace Workbench

variable {b : Workbench K} {s t u : Sketch K} {ms ns done : List (NamedConstraint K)}

/-- What is made anew manages what the old one does. -/
theorem exists_managed (renewed : List.Forall₂ NamedConstraint.Renews ms ns)
    {n : NamedConstraint K} (hn : n ∈ ns) :
    ∃ m ∈ ms, m.constraint.managed = n.constraint.managed := by
  have targets : ns.map (·.constraint.managed) = ms.map (·.constraint.managed) :=
    map_eq_of_forall₂ renewed fun _ _ h => h.2.managed
  have old : n.constraint.managed ∈ ms.map (·.constraint.managed) :=
    targets ▸ List.mem_map_of_mem hn
  exact List.mem_map.mp old

/-- Where just those that are done are made anew, the targets of the next one are free. -/
theorem free_of_renewed (renewed : List.Forall₂ NamedConstraint.Renews done ns)
    (shapes : s.SameShapes t) {m : NamedConstraint K}
    (owned : s.OwnedBy (stakesOf (done ++ m :: ms)))
    (distinct : (stakesOf (done ++ m :: ms)).Pairwise fun k m => k.id ≠ m.id)
    (marked : t.OwnedBy (stakesOf ns)) : ∀ id ∈ m.constraint.managed, t.owner id = .ok none := by
  have split : stakesOf (done ++ m :: ms) =
      stakesOf done ++ m.constraint.stake :: stakesOf ms := by simp [stakesOf]
  rw [split] at owned distinct
  intro id hid
  refine Sketch.OwnedBy.free (k := m.constraint.stake) shapes owned (fun o i ho => ?_) distinct hid
  obtain ⟨_, hk, -, ho⟩ := (marked o i).mp ho
  obtain ⟨n, hn, rfl⟩ := List.mem_map.mp hk
  obtain ⟨d, hd, same⟩ := exists_managed renewed hn
  refine ⟨d.constraint.stake, List.mem_map_of_mem hd, ?_⟩
  change o ∈ d.constraint.managed
  rwa [same]

/-- All that are left are made anew after those that are done. -/
theorem exists_readAll [Scalar K] (renewed : List.Forall₂ NamedConstraint.Renews done ns)
    (g : s.Grounded) (shapes : s.SameShapes t) (owned : s.OwnedBy (stakesOf (done ++ ms)))
    (distinct : (stakesOf (done ++ ms)).Pairwise fun k m => k.id ≠ m.id)
    (stands : ∀ m ∈ ms, m.constraint.Stands s) (marked : t.OwnedBy (stakesOf ns)) :
    ∃ loaded u, outcome (readAll ns (ms.map (·.saved))) t = (.ok loaded, u) ∧
      List.Forall₂ NamedConstraint.Renews (done ++ ms) loaded := by
  -- by induction on those that are left, while the marks set are on the targets of those done
  induction ms generalizing done ns t with
  | nil => exact ⟨ns, t, rfl, by rwa [List.append_nil]⟩
  | cons m ms ih =>
    have free := free_of_renewed renewed shapes owned distinct marked
    obtain ⟨d, u, read, renews⟩ :=
      ((stands m (by simp)).keeps shapes.keeps).renews (g.sameShapes shapes) free
    have installs := (Constraint.leaves_read m.constraint.record t).installs read
    have step : outcome (readAll ns ((m :: ms).map (·.saved))) t =
        outcome (readAll (ns ++ [⟨m.name, d⟩]) (ms.map (·.saved))) u := by
      have read : outcome (Constraint.read m.saved.record) t = (.ok d, u) := read
      rw [List.map_cons, outcome_readAll_cons, read]
      rfl
    have again : (done ++ [m]) ++ ms = done ++ m :: ms := (List.append_cons ..).symm
    rw [step, ← again]
    rw [← again] at owned distinct
    refine ih (List.rel_append renewed (.cons ⟨rfl, renews⟩ .nil))
      (shapes.trans installs.sameShapes) owned distinct
      (fun n hn => stands n (List.mem_cons_of_mem m hn)) ?_
    have claimed := marked.claim (k := d.stake) installs.unowned installs.entities
    simpa [stakesOf] using claimed

namespace InstallsAll

theorem sameShapes (h : InstallsAll ns s t) : s.SameShapes t := by
  induction h with
  | nil same => exact same.sameShapes
  | snoc n _ last ih => exact ih.trans last.sameShapes

/-- Numbers are given in order. -/
theorem numbered (h : InstallsAll ns s t) : s.constraintsMade ≤ t.constraintsMade ∧
    ∀ n ∈ ns, s.constraintsMade ≤ n.constraint.id.val := by
  induction h with
  | nil same => exact ⟨same.constraintsMade, by simp⟩
  | snoc n _ last ih =>
    obtain ⟨made, first⟩ := ih
    obtain ⟨old, new⟩ := last.numbered
    refine ⟨by omega, fun m hm => ?_⟩
    rcases List.mem_append.mp hm with hm | hm
    · exact first m hm
    · rw [List.mem_singleton.mp hm]
      omega

theorem param? (h : InstallsAll ns s t) {k : Handle} (live : (s.param? k).isSome) :
    t.param? k = s.param? k := by
  induction h with
  | nil same => exact same.params k
  | snoc n _ last ih =>
    have before := ih live
    rw [← before] at live
    exact (last.params.others k (last.params.apart live)).trans before

end InstallsAll

theorem sameShapes_releaseAll (ms : List (NamedConstraint K)) (s : Sketch K) :
    s.SameShapes (releaseAll ms s) := by
  induction ms generalizing s with
  | nil => exact .refl s
  | cons m ms ih => exact (m.constraint.sameShapes_release s).trans (ih _)

theorem param?_releaseAll {k : Handle} (apart : ∀ m ∈ ms, k ∉ m.constraint.auxiliary)
    (s : Sketch K) : (releaseAll ms s).param? k = s.param? k := by
  induction ms generalizing s with
  | nil => rfl
  | cons m ms ih =>
    obtain ⟨first, others⟩ := List.forall_mem_cons.mp apart
    refine (ih others (m.constraint.release s)).trans ?_
    exact (m.constraint.param?_release s k).trans (if_neg first)

/-- A constraint of the list owns just what it manages. -/
theorem Sound.owner_iff (sound : Sound b) {n : NamedConstraint K} (hn : n ∈ b.constraints)
    (o : ObjectId) :
    b.sketch.owner o = .ok (some n.constraint.id) ↔ o ∈ n.constraint.managed := by
  have mine : n.constraint.stake ∈ b.stakes := List.mem_map_of_mem hn
  rw [sound.owned]
  constructor
  · intro ⟨k, hk, same, ho⟩
    have distinct : (b.stakes.map (·.id)).Nodup := List.pairwise_map.mpr sound.distinct
    obtain rfl := List.inj_on_of_nodup_map distinct hk mine same
    exact ho
  · exact fun ho => ⟨_, mine, rfl, ho⟩

/-- The second workbench has the constraints of the first made anew, and is the same otherwise. -/
structure Restored [Scalar K] [Written K] (b b' : Workbench K) : Prop where
  names : b'.names = b.names
  /-- In the same order. -/
  constraints : List.Forall₂ NamedConstraint.Renews b.constraints b'.constraints
  fresh : ∀ n ∈ b'.constraints, b.sketch.constraintsMade ≤ n.constraint.id.val
  distinct : b'.constraints.Pairwise fun n m => n.constraint.id ≠ m.constraint.id
  owners : List.Forall₂ (fun m n => ∀ o, b'.sketch.owner o = .ok (some n.constraint.id) ↔
    b.sketch.owner o = .ok (some m.constraint.id)) b.constraints b'.constraints
  otherMarks : ∀ o, (∀ m ∈ b.constraints, b.sketch.owner o ≠ .ok (some m.constraint.id)) →
    b'.sketch.owner o = b.sketch.owner o
  shapes : b.sketch.SameShapes b'.sketch
  params : ∀ h ∈ b.sketch.fields, b'.sketch.param? h = b.sketch.param? h
  paramCount : b'.sketch.paramCount = b.sketch.paramCount
  saved : b'.save = b.save

/-- Objects without an owner are alike wherever they are. -/
theorem owner_of_unmarked (shapes : s.SameShapes t) {o : ObjectId}
    (before : ∀ i, s.owner o ≠ .ok (some i)) (after : ∀ i, t.owner o ≠ .ok (some i)) :
    t.owner o = s.owner o := by
  have free : ∀ {r : Sketch K}, (∀ i, r.owner o ≠ .ok (some i)) → ∀ {e}, r.entity? o = some e →
      r.owner o = .ok none := by
    intro r unmarked e he
    cases ho : e.owner with
    | none => exact Sketch.owner_eq_ok_iff.mpr ⟨e, he, ho⟩
    | some i => exact absurd (Sketch.owner_eq_ok_iff.mpr ⟨e, he, ho⟩) (unmarked i)
  have drawn := shapes.entity? o
  cases he : s.entity? o with
  | none =>
    rw [he] at drawn
    have gone : t.entity? o = none := Option.map_eq_none_iff.mp drawn
    simp only [Sketch.owner, Sketch.entity, he, gone]
  | some e =>
    rw [he] at drawn
    obtain ⟨d, hd, -⟩ := Option.map_eq_some_iff.mp drawn
    rw [free before he, free after hd]

section Renewed

variable {b' : Workbench K}
  (renewed : List.Forall₂ NamedConstraint.Renews b.constraints b'.constraints)

include renewed

theorem length_auxiliary_renewed : b'.auxiliary.length = b.auxiliary.length := by
  have lengths : b'.constraints.map (·.constraint.auxiliary.length) =
      b.constraints.map (·.constraint.auxiliary.length) :=
    map_eq_of_forall₂ renewed fun _ _ h => h.2.brought
  simp only [auxiliary, stakes, stakesOf, List.length_flatMap, List.map_map]
  exact congrArg List.sum lengths

theorem saved_renewed [Scalar K] [Written K] : b'.save = b.save := by
  have same : b'.saved = b.saved := map_eq_of_forall₂ renewed fun _ _ h => h.saved
  rw [save_eq, save_eq, same]

/-- What the old constraints owned the new ones own, in their order. -/
theorem owners_renewed (sound : Sound b) (sound' : Sound b') :
    List.Forall₂ (fun m n => ∀ o, b'.sketch.owner o = .ok (some n.constraint.id) ↔
      b.sketch.owner o = .ok (some m.constraint.id)) b.constraints b'.constraints := by
  refine List.forall₂_iff_zip.mpr ⟨renewed.length_eq, fun pair o => ?_⟩
  obtain ⟨hm, hn⟩ := List.of_mem_zip pair
  rw [sound'.owner_iff hn, sound.owner_iff hm, (List.forall₂_zip renewed pair).2.managed]

theorem otherMarks_renewed (sound : Sound b) (sound' : Sound b')
    (shapes : b.sketch.SameShapes b'.sketch) {o : ObjectId}
    (other : ∀ m ∈ b.constraints, b.sketch.owner o ≠ .ok (some m.constraint.id)) :
    b'.sketch.owner o = b.sketch.owner o := by
  refine owner_of_unmarked shapes (fun i ho => ?_) (fun i ho => ?_)
  · obtain ⟨_, hk, rfl, -⟩ := (sound.owned o i).mp ho
    obtain ⟨m, hm, rfl⟩ := List.mem_map.mp hk
    exact other m hm ho
  · obtain ⟨_, hk, -, mine⟩ := (sound'.owned o i).mp ho
    obtain ⟨n, hn, rfl⟩ := List.mem_map.mp hk
    obtain ⟨m, hm, same⟩ := exists_managed renewed hn
    refine other m hm ((sound.owner_iff hm o).mpr ?_)
    rw [same]
    exact mine

end Renewed

/-- The sketch that loading leaves has the old shapes, and their parameters as they were. -/
theorem Sound.replaced (sound : Sound b)
    (h : InstallsAll ns (Workbench.stepAside b.constraints b.sketch) t) :
    b.sketch.SameShapes (releaseAll b.constraints t) ∧
      ∀ k ∈ b.sketch.fields, (releaseAll b.constraints t).param? k = b.sketch.param? k := by
  have aside := remarked_stepAside b.constraints b.sketch
  refine ⟨(aside.toSameShapes.trans h.sameShapes).trans (sameShapes_releaseAll _ t), ?_⟩
  intro k hk
  have same : (Workbench.stepAside b.constraints b.sketch).param? k = b.sketch.param? k := by
    rw [Sketch.param?, aside.params]
    rfl
  have live : (b.sketch.param? k).isSome := (sound.listed.live k).mpr (List.mem_append_left _ hk)
  have apart : ∀ m ∈ b.constraints, k ∉ m.constraint.auxiliary := by
    intro m hm brought
    have among : k ∈ b.auxiliary :=
      List.mem_flatMap.mpr ⟨m.constraint.stake, List.mem_map_of_mem hm, brought⟩
    exact (List.nodup_append.mp sound.listed.distinct).2.2 k hk k among rfl
  rw [param?_releaseAll apart, h.param? (same ▸ live), same]

variable [Scalar K] [Written K]

/-- What was saved of a founded workbench is loaded again. -/
theorem Founded.exists_restored (f : Founded b)
    (storable : ∀ n ∈ b.constraints, n.constraint.record.Storable) :
    ∃ b', outcome (load b.save) b = (.ok (), b') ∧ Restored b b' := by
  have parsed : readSaved? b.save = some b.saved :=
    readSaved?_save (List.forall_mem_map.mpr storable)
  have aside := (remarked_stepAside b.constraints b.sketch).toSameShapes
  have start : List.Forall₂ (NamedConstraint.Renews (K := K)) [] [] := .nil
  obtain ⟨loaded, u, run, renewed⟩ := exists_readAll start f.ordered.grounded aside f.owned
    f.distinct f.stands f.stepAside
  have installs := ends_readAside f.toSound b.saved
  have founded := upholds_load b.save b f
  rw [saved, run] at installs
  have left := outcome_load b parsed
  simp only [saved, run] at left
  rw [left] at founded
  obtain ⟨shapes, params⟩ := f.replaced installs
  have distinct := List.pairwise_map.mp founded.distinct
  refine ⟨_, left, rfl, renewed, ?_, distinct, ?_, ?_, shapes, params, ?_, ?_⟩
  · intro n hn
    rw [← (remarked_stepAside b.constraints b.sketch).constraintsMade]
    exact installs.numbered.2 n hn
  · exact owners_renewed renewed f.toSound founded.toSound
  · exact fun o other => otherMarks_renewed renewed f.toSound founded.toSound shapes other
  · have fields : (releaseAll b.constraints u).fields = b.sketch.fields := shapes.fields
    have count := founded.listed.count
    have before := f.listed.count
    rw [List.length_append, length_auxiliary_renewed renewed, fields] at count
    rw [List.length_append] at before
    exact count.trans before.symm
  · exact saved_renewed renewed

def Gives (b : Workbench K) (x : K) : Prop := ∃ n ∈ b.constraints, n.constraint.record.Gives x

/-- After any session, what is saved is loaded again, if the numbers that are given as constants are
finite: the constraints are made anew, and all else is as it was. That numbers are read as they were
written is asked of those that are stored; numbers of objects have 32 bits. -/
theorem load_save (ops : List (Operation K)) (finite : ∀ x, (after ops).Gives x → Scalar.isFinite x)
    (numbers : ∀ x, (after ops).Gives x → Written.ReadsBack x)
    (few : (after ops).sketch.lastObject < Nat.pow 2 32)
    (integers : ∀ n ≤ (after ops).sketch.lastObject,
      (Written.ofLiteral? (K := K) (.ofNat n)).isSome) :
    ∃ b', outcome (load (after ops).save) (after ops) = (.ok (), b') ∧ Restored (after ops) b' := by
  have founded := founded_after ops
  refine founded.exists_restored fun n hn => ⟨fun id hid => ?_, fun x hx => ?_⟩
  · obtain ⟨e, he⟩ := Option.isSome_iff_exists.mp ((founded.stands n hn).known id hid)
    obtain ⟨mem, rfl⟩ := (Sketch.entity?_eq_some_iff founded.ordered).mp he
    have bound := founded.ordered.numbered e mem
    exact ⟨Nat.lt_of_le_of_lt bound few, integers _ bound⟩
  · exact ⟨finite x ⟨n, hn, hx⟩, numbers x ⟨n, hn, hx⟩⟩

def mirrorAndDistance : List (Operation Float) :=
  [.segment "l" ⟨0, 0⟩ ⟨0, 1⟩, .point "a" ⟨5, 5⟩, .point "b" ⟨6, 6⟩,
    .constrain "own" .mirror ["l", "a", "b"],
    .constrainWith "far" .distancePP ["a", "b"] (.ofList [("distance", .number 2.5)])]

theorem load_save_mirrorAndDistance :
    (after mirrorAndDistance).Gives 2.5 ∧
      ∃ b', outcome (load (after mirrorAndDistance).save) (after mirrorAndDistance) =
        (.ok (), b') ∧ Restored (after mirrorAndDistance) b' := by
  have listed : (after mirrorAndDistance).constraints.map (·.constraint.constants.entries) =
      [[], [("distance", .number 2.5)]] := by rfl
  have only : ∀ x, (after mirrorAndDistance).Gives x → x = 2.5 := by
    intro x ⟨n, hn, name, he⟩
    have entries : n.constraint.constants.entries ∈
        [[], [("distance", Raw.number 2.5)]] := listed ▸ List.mem_map_of_mem hn
    have given : (name, Raw.number x) ∈ n.constraint.constants.entries := he
    rcases List.mem_cons.mp entries with none | one
    · rw [none] at given
      cases given
    · rw [List.mem_singleton.mp one] at given
      exact Raw.number.inj (Prod.mk.inj (List.mem_singleton.mp given)).2
  have gives : (after mirrorAndDistance).Gives 2.5 := by
    have there : [("distance", Raw.number (2.5 : Float))] ∈
        (after mirrorAndDistance).constraints.map (·.constraint.constants.entries) := by
      simp [listed]
    obtain ⟨n, hn, same⟩ := List.mem_map.mp there
    refine ⟨n, hn, "distance", ?_⟩
    change _ ∈ n.constraint.constants.entries
    simp [same]
  refine ⟨gives, load_save mirrorAndDistance (fun x hx => ?_) (fun x hx => ?_) (by decide +kernel)
    (by decide +kernel)⟩
  · rw [only x hx]
    rfl
  · rw [only x hx]
    exact ⟨by decide +kernel, rfl⟩

end Workbench

end Drafting
