import Drafting.Proofs.Rereading

namespace Drafting

variable {K : Type} {s : Sketch K} {cs : List (Constraint K)}

namespace Audit

theorem mem_foldl_distinct (ids seen : List ObjectId) (id : ObjectId) :
    id ∈ ids.foldl (fun seen id => if seen.contains id then seen else seen ++ [id]) seen ↔
      id ∈ seen ∨ id ∈ ids := by
  induction ids generalizing seen with
  | nil => simp
  | cons o os ih =>
    rw [List.foldl_cons, ih, List.mem_cons, ← or_assoc]
    refine or_congr_left ?_
    split
    · rename_i known
      refine ⟨.inl, ?_⟩
      rintro (h | rfl)
      · exact h
      · exact List.contains_iff_mem.mp known
    · rw [List.mem_append, List.mem_singleton]

theorem mem_distinct {ids : List ObjectId} {id : ObjectId} : id ∈ distinct ids ↔ id ∈ ids := by
  rw [distinct, mem_foldl_distinct]
  simp

/-- An object is claimed as often as it is listed. -/
theorem length_claimants (ls : List (ObjectId × Constraint K)) (id : ObjectId) :
    (claimants ls id).length = (ls.map (·.1)).count id := by
  rw [claimants, List.length_map, ← List.countP_eq_length_filter, List.count, List.countP_map]
  rfl

theorem claimProblem?_eq_none_iff {ls : List (ObjectId × Constraint K)} {id : ObjectId} :
    claimProblem? ls id = none ↔ (ls.map (·.1)).count id ≤ 1 := by
  rw [← length_claimants, claimProblem?]
  rcases claimants ls id with _ | ⟨c, _ | ⟨d, rest⟩⟩
  · exact iff_of_true rfl (Nat.zero_le 1)
  · exact iff_of_true rfl (Nat.le_refl 1)
  · exact iff_of_false (fun none => by cases none) (by simp)

theorem markProblem?_eq_none_iff {c : Constraint K} {id : ObjectId} :
    markProblem? s c id = none ↔ s.owner id = .ok (some c.id) := by
  rw [markProblem?]
  cases s.owner id with
  | error e => simp
  | ok owner => simp

/-- The check passes just if each target is marked as owned by the modifier that lists it, and no
target is listed again. -/
theorem passed_singleOwner_iff : (singleOwner s cs).passed = true ↔
    (∀ l ∈ listings cs, s.owner l.1 = .ok (some l.2.id)) ∧ ((listings cs).map (·.1)).Nodup := by
  have passed : (singleOwner s cs).passed = true ↔
      (listings cs).filterMap (fun l => markProblem? s l.2 l.1) = [] ∧
        (distinct ((listings cs).map (·.1))).filterMap (claimProblem? (listings cs)) = [] := by
    rw [← List.append_eq_nil_iff, ← List.isEmpty_iff]
    unfold singleOwner
    dsimp only
    split
    · rename_i none
      exact iff_of_true rfl none
    · rename_i some
      exact iff_of_false Bool.false_ne_true some
  rw [passed, List.filterMap_eq_nil_iff, List.filterMap_eq_nil_iff, List.nodup_iff_count_le_one]
  refine and_congr (forall₂_congr fun l _ => markProblem?_eq_none_iff) ⟨fun once id => ?_, ?_⟩
  · by_cases listed : id ∈ (listings cs).map (·.1)
    · exact claimProblem?_eq_none_iff.mp (once id (mem_distinct.mpr listed))
    · exact List.count_eq_zero.mpr listed ▸ Nat.zero_le 1
  · exact fun once id _ => claimProblem?_eq_none_iff.mpr (once id)

end Audit

namespace Workbench

variable {b : Workbench K}

def unnamed (b : Workbench K) : List (Constraint K) := b.constraints.map (·.constraint)

/-- What is listed is a target of a modifier of the list. -/
theorem mem_listings {l : ObjectId × Constraint K} :
    l ∈ Audit.listings b.unnamed ↔ ∃ n ∈ b.constraints, n.constraint.kind.isModifier = true ∧
      l.1 ∈ n.constraint.managed ∧ n.constraint = l.2 := by
  simp only [Audit.listings, unnamed, List.mem_flatMap, List.mem_filter, List.mem_map]
  constructor
  · rintro ⟨c, ⟨⟨n, hn, rfl⟩, modifier⟩, id, hid, rfl⟩
    exact ⟨n, hn, modifier, hid, rfl⟩
  · rintro ⟨n, hn, modifier, hid, same⟩
    exact ⟨_, ⟨⟨n, hn, rfl⟩, modifier⟩, l.1, hid, Prod.ext rfl same⟩

theorem mem_claimants {c : Constraint K} {id : ObjectId} :
    c ∈ Audit.claimants (Audit.listings b.unnamed) id ↔ ∃ n ∈ b.constraints,
      n.constraint.kind.isModifier = true ∧ id ∈ n.constraint.managed ∧ n.constraint = c := by
  simp only [Audit.claimants, List.mem_map, List.mem_filter, mem_listings, beq_iff_eq]
  constructor
  · rintro ⟨l, ⟨⟨n, hn, modifier, hid, same⟩, rfl⟩, rfl⟩
    exact ⟨n, hn, modifier, hid, same⟩
  · rintro ⟨n, hn, modifier, hid, same⟩
    exact ⟨(id, c), ⟨⟨n, hn, modifier, hid, same⟩, rfl⟩, rfl⟩

/-- Only modifiers list targets, each of them with all its places. -/
theorem map_fst_listings (cs : List (Constraint K)) :
    (Audit.listings cs).map (·.1) = (cs.filter (·.kind.isModifier)).flatMap (·.managed) := by
  simp [Audit.listings, List.map_flatMap, Function.comp_def]

theorem Sound.pairwise_id_ne (sound : Sound b) :
    b.constraints.Pairwise fun n m => n.constraint.id ≠ m.constraint.id := by
  have distinct := sound.distinct
  rwa [stakes, stakesOf, List.pairwise_map] at distinct

/-- Constraints of the list that have a target in common are the same. -/
theorem Sound.eq_of_managed (sound : Sound b) {n m : NamedConstraint K} (hn : n ∈ b.constraints)
    (hm : m ∈ b.constraints) {id : ObjectId} (hid : id ∈ n.constraint.managed)
    (hid' : id ∈ m.constraint.managed) : n = m := by
  have owned := ((sound.owner_iff hn id).mpr hid).symm.trans ((sound.owner_iff hm id).mpr hid')
  have distinct : (b.constraints.map (·.constraint.id)).Nodup :=
    List.pairwise_map.mpr sound.pairwise_id_ne
  exact List.inj_on_of_nodup_map distinct hn hm (Option.some.inj (Except.ok.inj owned))

/-- So targets are listed once each just if no constraint lists a target of its own twice. -/
theorem Founded.nodup_listings_iff [Scalar K] (f : Founded b) :
    ((Audit.listings b.unnamed).map (·.1)).Nodup ↔
      ∀ n ∈ b.constraints, n.constraint.managed.Nodup := by
  have disjoint : b.unnamed.Pairwise fun c d => c.managed.Disjoint d.managed := by
    refine List.pairwise_map.mpr (f.pairwise_id_ne.imp_of_mem fun hn hm other id hid hid' => ?_)
    exact other (congrArg (·.constraint.id) (f.eq_of_managed hn hm hid hid'))
  rw [map_fst_listings, List.nodup_flatMap, and_iff_left (disjoint.filter _)]
  constructor
  · intro once n hn
    cases kind : n.constraint.kind.isModifier with
    | false =>
      rw [(f.stands n hn).managed_of_residual kind]
      exact .nil
    | true => exact once n.constraint (List.mem_filter.mpr ⟨List.mem_map_of_mem hn, kind⟩)
  · intro once c hc
    obtain ⟨n, hn, rfl⟩ := List.mem_map.mp (List.mem_filter.mp hc).1
    exact once n hn

variable [Scalar K] [Written K]

/-- After any session each target of a listed modifier is marked as owned by it, and no other one
lists the target; the check that says so passes just if no modifier lists a target of its own
twice. -/
theorem single_owner_passes_iff (ops : List (Operation K)) :
    ((Audit.singleOwner (after ops).sketch (after ops).unnamed).passed = true ↔
      ∀ n ∈ (after ops).constraints, n.constraint.managed.Nodup) ∧
    (∀ l ∈ Audit.listings (after ops).unnamed,
      Audit.markProblem? (after ops).sketch l.2 l.1 = none) ∧
    ∀ id, ∀ c ∈ Audit.claimants (Audit.listings (after ops).unnamed) id,
      ∀ d ∈ Audit.claimants (Audit.listings (after ops).unnamed) id, c = d := by
  have founded := founded_after ops
  have marked : ∀ l ∈ Audit.listings (after ops).unnamed,
      (after ops).sketch.owner l.1 = .ok (some l.2.id) := by
    intro l hl
    obtain ⟨n, hn, -, hid, same⟩ := mem_listings.mp hl
    exact same ▸ (founded.owner_iff hn l.1).mpr hid
  refine ⟨?_, fun l hl => Audit.markProblem?_eq_none_iff.mpr (marked l hl), fun id c hc d hd => ?_⟩
  · rw [Audit.passed_singleOwner_iff, and_iff_right marked, founded.nodup_listings_iff]
  · obtain ⟨n, hn, -, hid, rfl⟩ := mem_claimants.mp hc
    obtain ⟨m, hm, -, hid', rfl⟩ := mem_claimants.mp hd
    rw [founded.eq_of_managed hn hm hid hid']

/-- A mirror that lists one target twice owns it alone, and yet fault is found with it. -/
theorem single_owner_fails_repeated :
    ¬∀ ops : List (Operation Float),
      (Audit.singleOwner (after ops).sketch (after ops).unnamed).passed = true := by
  intro passes
  have passed := passes [.segment "l" ⟨0, 0⟩ ⟨0, 1⟩, .point "a" ⟨1, 1⟩, .point "b" ⟨2, 2⟩,
    .point "c" ⟨5, 5⟩, .constrain "twice" .mirror ["l", "a", "b", "c", "c"]]
  exact absurd passed (by decide +kernel)

end Workbench

end Drafting
