import Drafting.Proofs.Catalogue
import Drafting.Proofs.Session

namespace Drafting

variable {K : Type}

namespace Sketch

variable {s t u : Sketch K} {id : ObjectId}

theorem Keeps.refl (s : Sketch K) : s.Keeps s := fun _ e he => ⟨e, he, rfl⟩

theorem Keeps.trans (h : s.Keeps t) (h' : t.Keeps u) : s.Keeps u := by
  intro id e he
  obtain ⟨d, hd, same⟩ := h id e he
  obtain ⟨x, hx, same'⟩ := h' id d hd
  exact ⟨x, hx, same'.trans same⟩

theorem Keeps.contains (h : s.Keeps t) (known : s.contains id) : t.contains id := by
  obtain ⟨e, he⟩ := Option.isSome_iff_exists.mp known
  obtain ⟨d, hd, -⟩ := h id e he
  exact Option.isSome_iff_exists.mpr ⟨d, hd⟩

theorem Draws.keeps {e : Entity} (d : Draws e s t) (o : s.Ordered) : s.Keeps t := by
  intro id x hx
  refine ⟨x, ?_, rfl⟩
  rw [d.entity? o]
  split
  · rename_i same
    rw [same, d.new o] at hx
    cases hx
  · exact hx

/-- What was drawn is there under the number it was given. -/
theorem contains_addShape (shape : Shape) (s : Sketch K) :
    ((addShape shape).run s).2.contains ((addShape shape).run s).1 := by
  refine List.find?_isSome.mpr ⟨⟨⟨s.lastObject + 1⟩, shape, none⟩, ?_, ?_⟩
  · exact List.mem_append_right _ (List.mem_singleton_self _)
  · exact beq_self_eq_true _

theorem contains_of_kind {k : ShapeKind} (h : s.kind id = .ok k) : s.contains id := by
  obtain ⟨e, he, -⟩ := kind_eq_ok_iff.mp h
  exact Option.isSome_iff_exists.mpr ⟨e, he⟩

end Sketch

namespace Constraint

variable {s t u : Sketch K} {c : Constraint K}

theorem Formed.keeps (f : c.Formed s) (h : s.Keeps t) : c.Formed t :=
  ⟨⟨f.suits.accepted, fun hk => h.fits (f.suits.fits hk)⟩, f.params, f.auxiliary, f.sources,
    f.targets⟩

/-- The constraint could be made of its objects in the sketch, and they are there. -/
structure Stands (c : Constraint K) (s : Sketch K) : Prop extends c.Formed s where
  known : ∀ id ∈ c.objects, s.contains id

theorem Stands.keeps (f : c.Stands s) (h : s.Keeps t) : c.Stands t :=
  ⟨f.toFormed.keeps h, fun id hid => h.contains (f.known id hid)⟩

theorem Stands.withConstants (f : c.Stands s) (table : Table (Constant.Raw K)) :
    { c with constants := table }.Stands s :=
  ⟨f.toFormed.withConstants table, f.known⟩

variable {r : Record K}

/-- Objects that are looked up are those of the sketch. -/
theorem lookUp_eq_ok {ids live : List ObjectId} :
    outcome (ids.mapM fun id => (match if s.contains id then some id else none with
      | some live => pure live
      | none => throw (.notIndexed id) : Sketch.Edit K ConstraintError ObjectId)) t =
        (.ok live, u) ↔
      (∀ id ∈ ids, s.contains id) ∧ live = ids ∧ t = u := by
  induction ids generalizing live with
  | nil =>
    constructor
    · intro h
      cases h
      exact ⟨by simp, rfl, rfl⟩
    · rintro ⟨-, rfl, rfl⟩
      rfl
  | cons id ids ih =>
    rw [List.mapM_cons, List.forall_mem_cons]
    by_cases known : s.contains id
    · rw [if_pos known, outcome_bind_ok (outcome_pure id t), outcome_bind_eq_ok]
      constructor
      · intro ⟨others, v, h, made⟩
        cases made
        obtain ⟨all, rfl, same⟩ := ih.mp h
        exact ⟨⟨known, all⟩, rfl, same⟩
      · rintro ⟨⟨-, all⟩, rfl, same⟩
        exact ⟨ids, u, ih.mpr ⟨all, rfl, same⟩, rfl⟩
    · rw [if_neg known]
      constructor
      · intro h
        cases h
      · intro ⟨⟨h, _⟩, _⟩
        exact absurd h known

variable [Scalar K]

/-- A record is read if its objects are there and a constraint can be made of them. -/
theorem read_eq_ok : outcome (read r) s = (.ok c, t) ↔
    (∀ id ∈ r.objects, s.contains id) ∧ ∃ k, Kind.ofId? r.typeId = some k ∧
      outcome (make k r.objects r.constants .standard) s = (.ok c, t) := by
  unfold read
  rw [outcome_bind_ok (outcome_get s), readVia, outcome_bind_eq_ok]
  constructor
  · intro ⟨live, u, looked, made⟩
    obtain ⟨known, rfl, rfl⟩ := lookUp_eq_ok.mp looked
    refine ⟨known, ?_⟩
    cases kind : Kind.ofId? r.typeId with
    | none =>
      rw [kind] at made
      cases made
    | some k =>
      rw [kind] at made
      exact ⟨k, rfl, made⟩
  · intro ⟨known, k, kind, made⟩
    refine ⟨r.objects, s, lookUp_eq_ok.mpr ⟨known, rfl, rfl⟩, ?_⟩
    rw [kind]
    exact made

/-- A constraint that could be made could be made again, if its targets were free. -/
theorem stands_make {k : Kind} {objects : List ObjectId} {constants : Table (Constant.Raw K)}
    {o : Options K} (g : s.Grounded) (known : ∀ id ∈ objects, s.contains id)
    (h : outcome (make k objects constants o) s = (.ok c, t)) : c.Stands s := by
  obtain ⟨-, rfl, -⟩ := fields_make h
  exact ⟨formed_make g h, known⟩

theorem stands_create [Written K] {k : Kind} {objects : List ObjectId} (g : s.Grounded)
    (known : ∀ id ∈ objects, s.contains id) (h : outcome (create k objects) s = (.ok c, t)) :
    c.Stands s := by
  obtain ⟨made, hm, measured⟩ := create_eq_ok.mp h
  obtain ⟨table, rfl⟩ := initConstants_eq_ok measured
  exact (stands_make g known hm).withConstants table

theorem stands_read (g : s.Grounded) (h : outcome (read r) s = (.ok c, t)) : c.Stands s := by
  obtain ⟨known, k, -, made⟩ := read_eq_ok.mp h
  exact stands_make g known made

theorem stands_consistencyFor {object : ObjectId} (g : s.Grounded)
    (h : outcome (consistencyFor object) s = (.ok (some c), t)) : c.Stands s := by
  unfold consistencyFor at h
  obtain ⟨kind, u, asked, made⟩ := outcome_bind_eq_ok.mp h
  obtain ⟨found, rfl⟩ := Sketch.outcome_ask_eq_ok.mp asked
  have known : s.contains object := by
    cases hk : s.kind object with
    | ok k => exact Sketch.contains_of_kind hk
    | error e =>
      rw [hk] at found
      cases found
  have stands : ∀ k : Kind, outcome (do
      let c ← make k [object] .empty .standard
      pure (some { c with isInternal := true })) s = (.ok (some c), t) → c.Stands s := by
    intro k h
    obtain ⟨d, v, made, same⟩ := outcome_bind_eq_ok.mp h
    cases same
    have stands := stands_make g (by simpa using known) made
    exact ⟨⟨stands.suits, stands.params, stands.auxiliary, stands.sources, stands.targets⟩,
      stands.known⟩
  cases kind with
  | segment => exact stands .segmentConsistency made
  | arc => exact stands .arcConsistency made
  | _ => cases made

end Constraint

namespace Workbench

variable {b b' b'' : Workbench K}

/-- Objects never change their shape and never go away while a session goes on. -/
theorem Change.keeps (h : Change b b') (sound : Sound b) : b.sketch.Keeps b'.sketch := by
  cases h with
  | keep sketch => exact sketch.sameShapes.keeps
  | draw e sketch => exact sketch.keeps sound.ordered
  | write W sketch => exact sketch.sameShapes.keeps
  | install c sketch => exact sketch.sameShapes.keeps
  | remove c l r _ sketch => exact ((c.sameShapes_release _).trans sketch.sameShapes).keeps

theorem Changes.keeps (h : Changes b b') (sound : Sound b) : b.sketch.Keeps b'.sketch := by
  induction h with
  | refl => exact .refl _
  | tail before step ih => exact ih.trans (step.keeps (Changes.sound before sound))

structure Founded (b : Workbench K) : Prop extends Sound b where
  names : ∀ n ∈ b.names, b.sketch.contains n.2
  stands : ∀ n ∈ b.constraints, n.constraint.Stands b.sketch

/-- Only new names and new constraints need to be looked at. -/
theorem Founded.changes (f : Founded b) (h : Changes b b')
    (names : ∀ n ∈ b'.names, n ∈ b.names ∨ b'.sketch.contains n.2)
    (constraints : ∀ n ∈ b'.constraints, n ∈ b.constraints ∨ n.constraint.Stands b'.sketch) :
    Founded b' where
  toSound := h.sound f.toSound
  names := fun n hn => (names n hn).elim
    (fun old => (h.keeps f.toSound).contains (f.names n old)) id
  stands := fun n hn => (constraints n hn).elim
    (fun old => (f.stands n old).keeps (h.keeps f.toSound)) id

def Upholds (b b' : Workbench K) : Prop := Founded b → Founded b'

theorem Upholds.refl (b : Workbench K) : Upholds b b := id

theorem Upholds.trans (h : Upholds b b') (h' : Upholds b' b'') : Upholds b b'' := h' ∘ h

/-- Where no name and no constraint is new, nothing needs to be looked at. -/
theorem Evolves.upholds (h : Evolves b b') (names : b'.names = b.names)
    (constraints : b'.constraints = b.constraints) : Upholds b b' :=
  fun f => f.changes (h f.toSound) (fun _ hn => .inl (names ▸ hn))
    fun _ hn => .inl (constraints ▸ hn)

end Workbench

end Drafting
