import Drafting.Proofs.Objects

namespace Drafting

/-- What a constraint holds of a sketch: the objects it marked and the parameters it brought. -/
structure Stake where
  id : ConstraintId
  managed : List ObjectId
  auxiliary : List Handle
deriving DecidableEq

namespace Sketch

variable {K : Type} {s t : Sketch K} {id : ObjectId}

/-- A mark is no part of a shape. -/
theorem sameShapes_mark (s : Sketch K) (ids : List ObjectId) (which : Entity → Bool)
    (o : Option ConstraintId) : SameShapes s (s.mark ids which o) := by
  refine .of_map rfl (fun e => ?_) rfl
  split <;> rfl

theorem mark_nil (s : Sketch K) (which : Entity → Bool) (o : Option ConstraintId) :
    s.mark [] which o = s := by
  simp [mark]

theorem entities_claimed (s : Sketch K) (ids : List ObjectId) (o : Option ConstraintId) :
    (s.mark ids (fun _ => true) o).entities =
      s.entities.map fun e => if e.id ∈ ids then { e with owner := o } else e := by
  simp [mark]

theorem entities_release (s : Sketch K) (ids : List ObjectId) (i : ConstraintId) :
    (s.release ids i).entities = s.entities.map fun e =>
      if e.id ∈ ids ∧ e.owner = some i then { e with owner := none } else e := by
  simp [release, mark]

theorem sameShapes_release (s : Sketch K) (ids : List ObjectId) (i : ConstraintId) :
    SameShapes s (s.release ids i) := sameShapes_mark s ids _ none

theorem unowned_eq_ok_iff : s.unowned id = .ok () ↔ s.owner id = .ok none := by
  rw [unowned, bind_eq_ok]
  constructor
  · intro ⟨o, ho, h⟩
    cases o with
    | none => exact ho
    | some i => cases h
  · exact fun h => ⟨none, h, rfl⟩

/-- A claim succeeds if every object is there and has no owner, and then all of them have one. -/
theorem claim_eq_ok_iff {ids : List ObjectId} {i : ConstraintId} :
    s.claim ids i = .ok t ↔
      (∀ id ∈ ids, s.owner id = .ok none) ∧ t = s.mark ids (fun _ => true) (some i) := by
  have all : ids.forM s.unowned = .ok () ↔ ∀ id ∈ ids, s.owner id = .ok none := by
    rw [forM_eq_ok]
    exact forall₂_congr fun id _ => unowned_eq_ok_iff
  rw [claim, bind_eq_ok]
  constructor
  · intro ⟨_, h, ht⟩
    cases ht
    exact ⟨all.mp h, rfl⟩
  · intro ⟨h, ht⟩
    exact ⟨(), all.mpr h, congrArg Except.ok ht.symm⟩

inductive Refuses (s : Sketch K) (id : ObjectId) : SketchError → Prop where
  | unknown (missing : s.entity? id = none) : Refuses s id (.unknownObject id)
  | owned {i : ConstraintId} (marked : s.owner id = .ok (some i)) :
    Refuses s id (.alreadyManaged id i)

theorem unowned_eq_error_iff {e : SketchError} : s.unowned id = .error e ↔ s.Refuses id e := by
  constructor
  · intro refused
    rw [unowned] at refused
    cases marked : s.owner id with
    | error e' =>
      rw [marked] at refused
      cases refused
      obtain ⟨missing, rfl⟩ := owner_eq_error_iff.mp marked
      exact .unknown missing
    | ok o =>
      rw [marked] at refused
      cases o with
      | none => cases refused
      | some k =>
        cases refused
        exact .owned marked
  · rintro (missing | marked)
    · rw [unowned, owner_eq_error_iff.mpr ⟨missing, rfl⟩]
      rfl
    · rw [unowned, marked]
      rfl

/-- A claim is refused for the first object that cannot be claimed. -/
theorem claim_eq_error_iff {ids : List ObjectId} {i : ConstraintId} {e : SketchError} :
    s.claim ids i = .error e ↔
    ∃ before id after, ids = before ++ id :: after ∧ (∀ b ∈ before, s.owner b = .ok none) ∧
      s.Refuses id e := by
  have looked : s.claim ids i = .error e ↔ ids.forM s.unowned = .error e := by
    unfold claim
    cases ids.forM s.unowned <;> simp [bind, Except.bind, pure, Except.pure]
  rw [looked, forM_eq_error]
  simp only [unowned_eq_ok_iff, unowned_eq_error_iff]

theorem owned_claim {ids : List ObjectId} {i : ConstraintId}
    (free : ∀ id ∈ ids, s.owner id = .ok none)
    (claimed : t.entities =
      s.entities.map fun e => if e.id ∈ ids then { e with owner := some i } else e)
    (o : ObjectId) (j : ConstraintId) :
    t.owner o = .ok (some j) ↔ s.owner o = .ok (some j) ∨ (j = i ∧ o ∈ ids) := by
  have number : ∀ e : Entity, (if e.id ∈ ids then { e with owner := some i } else e).id = e.id := by
    intro e
    split <;> rfl
  rw [owner_map claimed number, owner_eq_ok_iff]
  by_cases hm : o ∈ ids
  · obtain ⟨e, he, unmarked⟩ := owner_eq_ok_iff.mp (free o hm)
    have hid := id_of_entity? he
    simp [he, hid, hm, unmarked, eq_comm]
  · rw [or_iff_left fun mine => hm mine.2]
    refine exists_congr fun e => and_congr_right fun he => ?_
    rw [id_of_entity? he, if_neg hm]

theorem owner_release (s : Sketch K) (ids : List ObjectId) (i : ConstraintId)
    {o : Option ConstraintId} :
    (s.release ids i).owner id = .ok o ↔
      ∃ e, s.entity? id = some e ∧ (if id ∈ ids ∧ e.owner = some i then none else e.owner) = o := by
  have number : ∀ e : Entity,
      (if e.id ∈ ids ∧ e.owner = some i then { e with owner := none } else e).id = e.id := by
    intro e
    split <;> rfl
  rw [owner_map (s.entities_release ids i) number]
  refine exists_congr fun e => and_congr_right fun he => ?_
  rw [id_of_entity? he]
  split <;> rfl

theorem unowned_release (ids : List ObjectId) (i : ConstraintId) (h : s.owner id = .ok none) :
    (s.release ids i).owner id = .ok none := by
  obtain ⟨e, he, free⟩ := owner_eq_ok_iff.mp h
  exact (s.owner_release ids i).mpr ⟨e, he, by simp [free]⟩

/-- Releasing takes the marks of one owner off and no others. -/
theorem owned_release (s : Sketch K) (ids : List ObjectId) (i : ConstraintId) (o : ObjectId)
    (j : ConstraintId) :
    (s.release ids i).owner o = .ok (some j) ↔
      s.owner o = .ok (some j) ∧ ¬(j = i ∧ o ∈ ids) := by
  rw [owner_release, owner_eq_ok_iff]
  constructor
  · intro ⟨e, he, marked⟩
    split at marked
    · cases marked
    · rename_i other
      refine ⟨⟨e, he, marked⟩, ?_⟩
      intro ⟨same, hm⟩
      exact other ⟨hm, marked.trans (congrArg some same)⟩
  · intro ⟨⟨e, he, marked⟩, other⟩
    refine ⟨e, he, ?_⟩
    rw [if_neg]
    · exact marked
    · intro ⟨hm, mine⟩
      exact other ⟨Option.some.inj (marked.symm.trans mine), hm⟩

/-- An object is marked just where one of the constraints lists it. -/
def OwnedBy (ks : List Stake) (s : Sketch K) : Prop :=
  ∀ o i, s.owner o = .ok (some i) ↔ ∃ k ∈ ks, k.id = i ∧ o ∈ k.managed

namespace OwnedBy

variable {ks l r : List Stake} {k : Stake}

theorem congr (h : OwnedBy ks s) (same : t.entities = s.entities) : OwnedBy ks t := by
  intro o i
  rw [owner_congr same]
  exact h o i

/-- A constraint that claims free objects joins those that own something. -/
theorem claim (h : OwnedBy ks s) (free : ∀ id ∈ k.managed, s.owner id = .ok none)
    (claimed : t.entities =
      s.entities.map fun e => if e.id ∈ k.managed then { e with owner := some k.id } else e) :
    OwnedBy (ks ++ [k]) t := by
  intro o i
  rw [owned_claim free claimed, h]
  simp [or_and_right, exists_or, eq_comm]

/-- Releasing one of the constraints leaves the marks of the others. -/
theorem release (h : OwnedBy (l ++ k :: r) s) (other : ∀ m ∈ l ++ r, m.id ≠ k.id) :
    OwnedBy (l ++ r) (s.release k.managed k.id) := by
  intro o i
  rw [owned_release, h o i]
  constructor
  · intro ⟨⟨m, hm, hid, ho⟩, notMine⟩
    refine ⟨m, ?_, hid, ho⟩
    rcases List.mem_append.mp hm with hm | hm
    · exact List.mem_append_left _ hm
    · rcases List.mem_cons.mp hm with mine | hm
      · subst mine
        exact absurd ⟨hid.symm, ho⟩ notMine
      · exact List.mem_append_right _ hm
  · intro ⟨m, hm, hid, ho⟩
    refine ⟨⟨m, ?_, hid, ho⟩, ?_⟩
    · exact ((List.sublist_cons_self k r).append_left l).subset hm
    · intro ⟨mine, _⟩
      exact other m hm (hid.trans mine)

/-- Where the marks of some constraints are off, the objects of each of these are free. Marks that
are on may be those of others, as long as they are on the same objects. -/
theorem free (shapes : s.SameShapes t) (hs : OwnedBy (l ++ k :: r) s)
    (ht : ∀ o i, t.owner o = .ok (some i) → ∃ m ∈ l, o ∈ m.managed)
    (distinct : (l ++ k :: r).Pairwise fun k m => k.id ≠ m.id) (hid : id ∈ k.managed) :
    t.owner id = .ok none := by
  have mine : s.owner id = .ok (some k.id) := (hs id k.id).mpr ⟨k, by simp, rfl, hid⟩
  obtain ⟨d, hd⟩ := shapes.known mine
  cases ho : d.owner with
  | none => exact owner_eq_ok_iff.mpr ⟨d, hd, ho⟩
  | some i =>
    obtain ⟨m, hm, hmid⟩ := ht id i (owner_eq_ok_iff.mpr ⟨d, hd, ho⟩)
    have theirs := (hs id m.id).mpr ⟨m, List.mem_append_left _ hm, rfl, hmid⟩
    have one := Option.some.inj (Except.ok.inj (theirs.symm.trans mine))
    exact absurd one ((List.pairwise_append.mp distinct).2.2 m hm k (by simp))

/-- The constraints determine the marks. -/
theorem unique (o : s.Ordered) (h : s.SameShapes t) (hs : OwnedBy ks s) (ht : OwnedBy ks t) :
    t.entities = s.entities := by
  have o' := o.sameShapes h
  have len : t.entities.length = s.entities.length := by
    simpa using congrArg List.length h.drawn
  refine List.ext_getElem len fun n hn hn' => ?_
  have drawn : (t.entities[n]).drawn = (s.entities[n]).drawn := by
    have same := congrArg (·[n]?) h.drawn
    simpa [hn, hn'] using same
  obtain ⟨number, shape⟩ := Prod.mk.inj drawn
  have before := owner_of_mem o.keyed (List.getElem_mem hn')
  have after := owner_of_mem o'.keyed (List.getElem_mem hn)
  rw [number] at after
  have owner : (t.entities[n]).owner = (s.entities[n]).owner := by
    refine Option.ext fun i => ?_
    have both := (ht (s.entities[n]).id i).trans (hs (s.entities[n]).id i).symm
    rw [before, after] at both
    simpa using both
  cases hx : t.entities[n]
  cases hy : s.entities[n]
  simp_all

end OwnedBy

end Sketch

end Drafting
