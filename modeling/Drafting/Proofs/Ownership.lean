import Drafting.Double
import Drafting.Proofs.Reflecting
import Drafting.Proofs.Session

namespace Drafting

variable {K : Type}

namespace Workbench

section Owners

variable [Scalar K] [Written K]

/-- The owner of an object is the one constraint of the list that manages it. -/
theorem single_owner (ops : List (Operation K)) :
    let b := after ops
    (∀ o i, b.sketch.owner o = .ok (some i) ↔
      ∃ n ∈ b.constraints, n.constraint.id = i ∧ o ∈ n.constraint.managed) ∧
    b.constraints.Pairwise fun n m => ∀ o ∈ n.constraint.managed, o ∉ m.constraint.managed := by
  have sound := sound_after ops
  have owned : ∀ o i, (after ops).sketch.owner o = .ok (some i) ↔
      ∃ n ∈ (after ops).constraints, n.constraint.id = i ∧ o ∈ n.constraint.managed := by
    intro o i
    rw [sound.owned o i]
    simp [stakes, stakesOf, Constraint.stake]
  refine ⟨owned, ?_⟩
  have distinct := List.pairwise_map.mp sound.distinct
  refine distinct.imp_of_mem fun {n m} hn hm ne o ho hm' => ne ?_
  have first := (owned o n.constraint.id).mpr ⟨n, hn, rfl, ho⟩
  have second := (owned o m.constraint.id).mpr ⟨m, hm, rfl, hm'⟩
  exact Option.some.inj (Except.ok.inj (first.symm.trans second))

omit [Scalar K] [Written K] in
theorem Sound.wellFormed {b : Workbench K} (sound : Sound b) : b.sketch.WellFormed where
  toOrdered := sound.ordered
  distinct := (List.nodup_append.mp sound.listed.distinct).1
  live := fun h hh => (sound.listed.live h).mpr (List.mem_append_left _ hh)

omit [Scalar K] [Written K] in
theorem Sound.not_managed {b : Workbench K} {o : ObjectId} {i : ConstraintId}
    {n : NamedConstraint K} (sound : Sound b) (owned : b.sketch.owner o = .ok (some i))
    (listed : n ∈ b.constraints) (other : n.constraint.id ≠ i) : o ∉ n.constraint.managed := by
  intro managed
  have mine := (sound.owned o n.constraint.id).mpr
    ⟨n.constraint.stake, List.mem_map_of_mem listed, rfl, managed⟩
  exact other (Option.some.inj (Except.ok.inj (mine.symm.trans owned)))

/-- A modifier changes parameters of an object that another one owns just where it moves a point
that the object shares with a target; and where it succeeds, each such point is left at the
reflection of a point of its sources, whoever owns it. -/
theorem foreign_writes (ops : List (Operation K)) {o : ObjectId} {i : ConstraintId}
    {n : NamedConstraint K} (owned : (after ops).sketch.owner o = .ok (some i))
    (listed : n ∈ (after ops).constraints) (other : n.constraint.id ≠ i) :
    let s := (after ops).sketch
    let t := (outcome n.constraint.modify s).2
    ∃ hs, s.objectParams o = .ok hs ∧
      ((∀ h ∈ hs, t.param? h = s.param? h) ↔
        ∀ p ∈ s.pointsOf o, (∃ id ∈ n.constraint.managed, p ∈ s.pointsOf id) →
          t.position p = s.position p) ∧
      (n.constraint.kind.isModifier → (outcome n.constraint.modify s).1 = .ok () →
        ∀ line sources, n.constraint.reference = line :: sources →
          ∃ r, s.reflection line = .ok r ∧ ∀ pair ∈ sources.zip n.constraint.managed,
            ∀ p ∈ s.pointsOf o, p ∈ s.pointsOf pair.2 →
              s.Mirrored (fun h => ∃ id ∈ n.constraint.managed, s.Carries id h) r
                ((sources.zip n.constraint.managed).flatMap fun pair =>
                  s.images pair.1 pair.2) t p) := by
  intro s t
  have sound := sound_after ops
  have apart := sound.not_managed owned listed other
  obtain ⟨e, he, -⟩ := Sketch.owner_eq_ok_iff.mp owned
  obtain ⟨hs, params⟩ := Sketch.objectParams_ok sound.ordered he
  refine ⟨hs, params, ?_, ?_⟩
  · have spared := (n.constraint.writes_modify s).spares_iff sound.wellFormed he fun id hid same =>
      apart (same ▸ hid)
    simpa only [Sketch.mem_objectParams params] using spared
  · intro modifier succeeds line sources reference
    obtain ⟨r, hr, mirrored⟩ := Constraint.mirrored_modify sound.wellFormed modifier reference
      (Prod.ext succeeds rfl)
    exact ⟨r, hr, fun pair hpair p _ hp => mirrored pair hpair p hp⟩

end Owners

/-- Point 7 is an end of segment 9. The first mirror owns the point, the second the segment. -/
def mirrors : List (Operation Float) :=
  [.segment "l" ⟨0, 0⟩ ⟨0, 1⟩, .segment "s" ⟨1, 0⟩ ⟨2, 0⟩, .segment "t" ⟨9, 0⟩ ⟨10, 0⟩,
    .nameObject "p" ⟨7⟩, .point "a" ⟨5, 5⟩, .point "b" ⟨6, 6⟩,
    .constrain "own" .mirror ["l", "a", "p"], .constrain "other" .mirror ["l", "s", "t"],
    .constrain "apart" .mirror ["l", "a", "b"]]

theorem mirrors_listed (i : Nat) {x : ConstraintId × Kind × List ObjectId × List ObjectId}
    (h : (after mirrors).constraints[i]?.map (fun n => (n.constraint.id, n.constraint.kind,
      n.constraint.reference, n.constraint.managed)) = some x) :
    ∃ n ∈ (after mirrors).constraints, (after mirrors).constraints[i]? = some n ∧
      n.constraint.id = x.1 ∧ n.constraint.kind = x.2.1 ∧ n.constraint.reference = x.2.2.1 ∧
        n.constraint.managed = x.2.2.2 := by
  obtain ⟨n, hn, rfl⟩ := Option.map_eq_some_iff.mp h
  exact ⟨n, List.mem_of_getElem? hn, hn, rfl, rfl, rfl, rfl⟩

/-- The third mirror spares the point, the second one moves it. -/
theorem foreign_writes_mirrors :
    let s := (after mirrors).sketch
    s.owner ⟨7⟩ = .ok (some ⟨0⟩) ∧
    (∃ n ∈ (after mirrors).constraints, n.constraint.id = ⟨2⟩ ∧
      ∃ hs, s.objectParams ⟨7⟩ = .ok hs ∧
        ∀ h ∈ hs, (outcome n.constraint.modify s).2.param? h = s.param? h) ∧
    ∃ n ∈ (after mirrors).constraints, n.constraint.id = ⟨1⟩ ∧ ∃ r, s.reflection ⟨3⟩ = .ok r ∧
      s.Mirrored (fun h => ∃ id ∈ n.constraint.managed, s.Carries id h) r (s.images ⟨6⟩ ⟨9⟩)
        (outcome n.constraint.modify s).2 ⟨7⟩ := by
  have owned : (after mirrors).sketch.owner ⟨7⟩ = .ok (some ⟨0⟩) := by rfl
  refine ⟨owned, ?_, ?_⟩
  · obtain ⟨n, listed, -, hid, -, -, hm⟩ :=
      mirrors_listed 2 (x := (⟨2⟩, .mirror, [⟨3⟩, ⟨10⟩], [⟨11⟩])) (by decide +kernel)
    have apart : ∀ p ∈ (after mirrors).sketch.pointsOf ⟨7⟩,
        p ∉ (after mirrors).sketch.pointsOf ⟨11⟩ := by decide +kernel
    obtain ⟨hs, params, spared, -⟩ := foreign_writes mirrors owned listed (by simp [hid])
    refine ⟨n, listed, hid, hs, params, spared.mpr fun p hp shared => ?_⟩
    obtain ⟨id, hmem, hp'⟩ := shared
    rw [hm] at hmem
    obtain rfl := List.mem_singleton.mp hmem
    exact absurd hp' (apart p hp)
  · obtain ⟨n, listed, place, hid, hk, href, hm⟩ :=
      mirrors_listed 1 (x := (⟨1⟩, .mirror, [⟨3⟩, ⟨6⟩], [⟨9⟩])) (by decide +kernel)
    have runs : (after mirrors).constraints[1]?.map (fun n =>
        (outcome n.constraint.modify (after mirrors).sketch).1.toOption) = some (some ()) := by
      decide +kernel
    have succeeds : (outcome n.constraint.modify (after mirrors).sketch).1 = .ok () := by
      rw [place] at runs
      cases h : (outcome n.constraint.modify (after mirrors).sketch).1 with
      | ok _ => rfl
      | error e => simp [h, Except.toOption] at runs
    obtain ⟨-, -, -, mirrored⟩ := foreign_writes mirrors owned listed (by simp [hid])
    obtain ⟨r, hr, lies⟩ := mirrored (by rw [hk]; rfl) succeeds ⟨3⟩ [⟨6⟩] href
    rw [hm] at lies
    have moved := lies (⟨6⟩, ⟨9⟩) (by simp) ⟨7⟩ (by decide +kernel) (by decide +kernel)
    refine ⟨n, listed, hid, r, hr, ?_⟩
    rw [hm]
    simpa using moved

/-- Owners are not the only writers: the second mirror moves the point that the first one owns. -/
theorem foreign_writes_shared :
    ¬∀ (ops : List (Operation Float)) (o : ObjectId) (i : ConstraintId)
      (n : NamedConstraint Float) (hs : List Handle),
      (after ops).sketch.owner o = .ok (some i) → n ∈ (after ops).constraints →
        n.constraint.id ≠ i → (after ops).sketch.objectParams o = .ok hs →
          ∀ h ∈ hs, (outcome n.constraint.modify (after ops).sketch).2.param? h =
            (after ops).sketch.param? h := by
  intro exclusive
  obtain ⟨n, listed, place, hid, -⟩ :=
    mirrors_listed 1 (x := (⟨1⟩, .mirror, [⟨3⟩, ⟨6⟩], [⟨9⟩])) (by decide +kernel)
  have same := exclusive mirrors ⟨7⟩ ⟨0⟩ n [⟨13, 1⟩, ⟨14, 1⟩] rfl listed (by simp [hid]) rfl
    ⟨13, 1⟩ (by simp)
  have moved : (after mirrors).constraints[1]?.map (fun n =>
      ((outcome n.constraint.modify (after mirrors).sketch).2.param? ⟨13, 1⟩).map
        (·.value.toBits)) ≠
      some (((after mirrors).sketch.param? ⟨13, 1⟩).map (·.value.toBits)) := by
    decide +kernel
  rw [place, Option.map_some, same] at moved
  exact moved rfl

end Workbench

end Drafting
