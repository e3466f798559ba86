import Drafting.Proofs.Confining
import Drafting.Proofs.Ownership
import Drafting.Proofs.Remapping

namespace Drafting

variable {K : Type}

namespace Sketch

variable {s t u : Sketch K}

/-- The same shapes, and every parameter of the first sketch as it is there. -/
structure Extends (s t : Sketch K) : Prop extends s.SameShapes t where
  params : ∀ h, (s.param? h).isSome → t.param? h = s.param? h

theorem Extends.refl (s : Sketch K) : s.Extends s := ⟨.refl s, fun _ _ => rfl⟩

theorem Extends.live (h : s.Extends t) {k : Handle} (live : (s.param? k).isSome) :
    (t.param? k).isSome := h.params k live ▸ live

theorem Extends.trans (h : s.Extends t) (h' : t.Extends u) : s.Extends u :=
  ⟨h.toSameShapes.trans h'.toSameShapes,
    fun k live => (h'.params k (h.live live)).trans (h.params k live)⟩

theorem Extends.wellFormed (h : s.Extends t) (w : s.WellFormed) : t.WellFormed where
  toOrdered := w.toOrdered.sameShapes h.toSameShapes
  distinct := h.fields ▸ w.distinct
  live k field := h.live (w.live k (h.fields ▸ field))

theorem Extends.value [Scalar K] (h : s.Extends t) {k : Handle} (live : (s.param? k).isSome) :
    t.value k = s.value k := by
  rw [Sketch.value, Sketch.value, h.params k live]

/-- Each object is like itself. -/
theorem Extends.alike [Scalar K] (h : s.Extends t) (w : s.WellFormed) {id : ObjectId}
    (known : s.contains id) : s.Alike t id id := by
  obtain ⟨e, he⟩ := Option.isSome_iff_exists.mp known
  obtain ⟨hs, listed, -⟩ := w.toOrdered.exists_listed he
  have kind : s.IsA (.only e.shape.kind) id := ⟨e, he, beq_self_eq_true _⟩
  refine ⟨⟨e.shape.kind, kind_eq_ok_iff.mpr kind, kind_eq_ok_iff.mpr (h.keeps.isA kind)⟩, hs, hs,
    listed, h.keeps.objectParams listed, List.map_congr_left fun k hk => ?_⟩
  exact (h.value (w.live_of_listed listed k hk)).symm

/-- A constraint that is made adds parameters and leaves those that were there. -/
theorem extends_of_installs {c : Constraint K} (h : c.Installs s t) : s.Extends t :=
  ⟨h.sameShapes, fun k live => h.params.others k (h.params.apart live)⟩

/-- Constraints that step aside give up their marks and keep their parameters. -/
theorem extends_stepAside (ns : List (NamedConstraint K)) (s : Sketch K) :
    s.Extends (Workbench.stepAside ns s) := by
  have aside := Workbench.remarked_stepAside ns s
  refine ⟨aside.toSameShapes, fun k _ => ?_⟩
  rw [param?, aside.params]
  rfl

end Sketch

variable [Scalar K]

namespace Constraint

variable {s t u v : Sketch K} {c d : Constraint K} {r : Record K}

/-- A record is read in a sketch as in one with fewer parameters, and has the same residuals. -/
theorem read_resembles [Written K] (w : s.WellFormed) (h : s.Extends u)
    (read_ : outcome (read r) u = (.ok c, v)) (residual : c.kind.isModifier = false) :
    ∃ d t, outcome (read r) s = (.ok d, t) ∧ d.Resembles t c v := by
  obtain ⟨known, k, kind, made⟩ := read_eq_ok.mp read_
  obtain ⟨rfl, -⟩ := fields_make made
  have w' := h.wellFormed w
  have there : ∀ id ∈ r.objects, s.contains id :=
    fun id hid => h.toSameShapes.symm.keeps.contains (known id hid)
  have fits : s.Fits c.kind.signature r.objects := h.toSameShapes.symm.keeps.fits
    ((exists_make_iff r.constants .standard w'.toOrdered.grounded residual).mp ⟨c, v, made⟩)
  obtain ⟨d, t, made'⟩ :=
    (exists_make_iff r.constants .standard w.toOrdered.grounded residual).mpr fits
  have alike : List.Forall₂ (s.Alike u) r.objects r.objects :=
    List.forall₂_same.mpr fun id hid => h.alike w (there id hid)
  exact ⟨d, t, read_eq_ok.mpr ⟨there, c.kind, kind, made'⟩,
    resembles_of_make residual w w' alike made' made⟩

end Constraint

namespace Workbench

variable {b : Workbench K} {s t u : Sketch K} {saved : List (SavedConstraint K)}
  {made loaded : List (NamedConstraint K)}

/-- The record was read somewhere on the way from the one sketch to the other. -/
def Reads (s t : Sketch K) (r : SavedConstraint K) (n : NamedConstraint K) : Prop :=
  n.name = r.name ∧ ∃ u v, s.Extends u ∧ v.Extends t ∧
    outcome (Constraint.read r.record) u = (.ok n.constraint, v)

/-- Each record is read in the sketch that those before it have left. -/
theorem reads_of_readAll (h : outcome (readAll made saved) s = (.ok loaded, t)) :
    ∃ new, loaded = made ++ new ∧ s.Extends t ∧ List.Forall₂ (Reads s t) saved new := by
  induction saved generalizing made s with
  | nil =>
    cases h
    exact ⟨[], (List.append_nil _).symm, .refl _, .nil⟩
  | cons first rest ih =>
    rw [outcome_readAll_cons] at h
    cases read : outcome (Constraint.read first.record) s with
    | mk answer u =>
      rw [read] at h
      cases answer with
      | error e => cases h
      | ok c =>
        have step := Sketch.extends_of_installs (Constraint.installs_read read)
        obtain ⟨new, rfl, later, reads⟩ := ih h
        refine ⟨⟨first.name, c⟩ :: new, List.append_assoc .., step.trans later, ?_⟩
        refine .cons ⟨rfl, s, u, .refl s, later, read⟩ (reads.imp fun r n => ?_)
        exact fun ⟨name, v, w, before, after, read⟩ =>
          ⟨name, v, w, step.trans before, after, read⟩

/-- Parameters of a constraint that was read stay when those that it replaces are released. -/
theorem Sound.param?_loaded (sound : Sound b) {r : Record K} {c : Constraint K} {v : Sketch K}
    (before : b.sketch.Extends u) (read : outcome (Constraint.read r) u = (.ok c, v))
    (after : v.Extends t) :
    ∀ h ∈ c.params, (releaseAll b.constraints t).param? h = v.param? h := by
  intro h hh
  have w := before.wellFormed sound.wellFormed
  have installs := Constraint.installs_read read
  obtain ⟨-, k, -, made⟩ := Constraint.read_eq_ok.mp read
  have live : (v.param? h).isSome ∧ ∀ m ∈ b.constraints, h ∉ m.constraint.auxiliary := by
    rcases (Constraint.Makes.given _ _ made).within w.toOrdered h hh with mine | field
    · refine ⟨installs.params.live h mine, fun m hm theirs => ?_⟩
      exact installs.params.apart (before.live ((sound.held m hm).live h theirs)) mine
    · refine ⟨(Sketch.extends_of_installs installs).live (w.live h field), fun m hm theirs => ?_⟩
      have brought : h ∈ b.auxiliary :=
        List.mem_flatMap.mpr ⟨m.constraint.stake, List.mem_map_of_mem hm, theirs⟩
      exact (List.nodup_append.mp sound.listed.distinct).2.2 h (before.fields ▸ field) h brought rfl
  rw [param?_releaseAll live.2, after.params h live.1]

/-- The constraint has the kind of the record, and its residuals have the values that those of the
record have where it is read alone. -/
def ReadsAlone [Written K] (s t : Sketch K) (r : SavedConstraint K) (n : NamedConstraint K) :
    Prop :=
  n.name = r.name ∧ Kind.ofId? r.record.typeId = some n.constraint.kind ∧
    (n.constraint.kind.isModifier = false → ∃ d u xs,
      outcome (Constraint.read r.record) s = (.ok d, u) ∧ d.residualValues u = .ok xs ∧
        n.constraint.residualValues t = .ok xs)

theorem Sound.readsAlone [Written K] (sound : Sound b) {r : SavedConstraint K}
    {n : NamedConstraint K} (reads : Reads (Workbench.stepAside b.constraints b.sketch) t r n) :
    ReadsAlone b.sketch (releaseAll b.constraints t) r n := by
  obtain ⟨name, u, v, before, after, read⟩ := reads
  have start : b.sketch.Extends u := (Sketch.extends_stepAside b.constraints b.sketch).trans before
  obtain ⟨-, k, kind, made⟩ := Constraint.read_eq_ok.mp read
  obtain ⟨rfl, -⟩ := Constraint.fields_make made
  refine ⟨name, kind, fun residual => ?_⟩
  obtain ⟨d, w, alone, resembles⟩ := Constraint.read_resembles sound.wellFormed start read residual
  obtain ⟨xs, values, values'⟩ := resembles.residualValues
  have formed := Constraint.formed_make (start.wellFormed sound.wellFormed).toOrdered.grounded made
  obtain ⟨ys, kept, there⟩ := formed.residualValues_congr (u := releaseAll b.constraints t) (v := v)
    fun h hh => by
      rw [Sketch.value, Sketch.value, sound.param?_loaded start read after h hh]
  cases values'.symm.trans there
  exact ⟨d, w, xs, alone, values, kept⟩

/-- What a text that is accepted leaves: each constraint of the list is one of its records, with
residuals as if the record had been read alone. -/
theorem Sound.load_eq_ok [Written K] (sound : Sound b) {text : String} {b' : Workbench K}
    (h : outcome (load text) b = (.ok (), b')) :
    ∃ saved, readSaved? text = some saved ∧
      List.Forall₂ (ReadsAlone b.sketch b'.sketch) saved b'.constraints := by
  cases parsed : readSaved? (K := K) text with
  | none =>
    rw [load_of_unreadable b parsed] at h
    cases h
  | some saved =>
    cases run : outcome (readAll [] saved) (Workbench.stepAside b.constraints b.sketch) with
    | mk answer t =>
      cases answer with
      | error e =>
        obtain ⟨v, failed, -⟩ := load_of_error sound parsed run
        rw [failed] at h
        cases h
      | ok loaded =>
        rw [outcome_load b parsed, run] at h
        cases h
        obtain ⟨new, rfl, -, reads⟩ := reads_of_readAll run
        exact ⟨saved, rfl, reads.imp fun r n => sound.readsAlone⟩

end Workbench

end Drafting
