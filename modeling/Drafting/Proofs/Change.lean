import Drafting.Workbench
import Drafting.Proofs.Construction
import Drafting.Proofs.Writing

namespace Drafting

variable {K : Type}

namespace Workbench

variable {b b' : Workbench K}

def stakesOf (cs : List (NamedConstraint K)) : List Stake := cs.map (·.constraint.stake)

def stakes (b : Workbench K) : List Stake := stakesOf b.constraints

def auxiliary (b : Workbench K) : List Handle := b.stakes.flatMap (·.auxiliary)

/-- One change of the sketch, with what it means for the list of constraints. -/
inductive Change (b b' : Workbench K) : Prop where
  /-- Nothing that shows: constants may differ, slots and numbers may have been used. -/
  | keep (sketch : b.sketch.Unchanged b'.sketch) (stakes : b'.stakes = b.stakes)
  | draw (e : Entity) (sketch : Sketch.Draws e b.sketch b'.sketch) (stakes : b'.stakes = b.stakes)
  | write (W : Handle → Prop) (sketch : b.sketch.Writes W b'.sketch) (stakes : b'.stakes = b.stakes)
  | install (c : Constraint K) (sketch : c.Installs b.sketch b'.sketch)
      (stakes : b'.stakes = b.stakes ++ [c.stake])
  | remove (c : Constraint K) (l r : List Stake) (before : b.stakes = l ++ c.stake :: r)
      (sketch : (c.release b.sketch).Unchanged b'.sketch) (stakes : b'.stakes = l ++ r)

def Changes : Workbench K → Workbench K → Prop := Relation.ReflTransGen Change

/-- Marks, parameters and constraints are in line with each other. -/
structure Sound (b : Workbench K) : Prop where
  ordered : b.sketch.Ordered
  numbered : ∀ k ∈ b.stakes, k.id.val < b.sketch.constraintsMade
  distinct : b.stakes.Pairwise fun k m => k.id ≠ m.id
  owned : b.sketch.OwnedBy b.stakes
  listed : b.sketch.params.Listed (b.sketch.fields ++ b.auxiliary)

/-- What the objects of a workbench refer to is there. -/
theorem Sound.live (sound : Sound b) : b.sketch.Live :=
  fun h field => (sound.listed.live h).mpr (List.mem_append_left _ field)

theorem Sound.empty (autoCheck : Bool) : (empty autoCheck : Workbench K).Sound where
  ordered := .empty
  numbered := by simp [Workbench.empty, stakes, stakesOf]
  distinct := .nil
  owned := by
    intro o i
    simp [Workbench.empty, stakes, stakesOf, Sketch.empty, Sketch.owner_eq_ok_iff, Sketch.entity?]
  listed := .empty

/-- Where the constraints hold what they held, only the sketch needs to be looked at. -/
theorem Sound.of_sketch (s : Sound b) (stakes : b'.stakes = b.stakes) (ordered : b'.sketch.Ordered)
    (made : b.sketch.constraintsMade ≤ b'.sketch.constraintsMade)
    (owned : b'.sketch.OwnedBy b.stakes)
    (listed : b'.sketch.params.Listed (b'.sketch.fields ++ b.auxiliary)) : Sound b' where
  ordered := ordered
  numbered := by
    intro k hk
    rw [stakes] at hk
    have less := s.numbered k hk
    omega
  distinct := stakes ▸ s.distinct
  owned := stakes ▸ owned
  listed := by
    rw [auxiliary, stakes]
    exact listed

theorem Sound.keep (s : Sound b) (h : b.sketch.Unchanged b'.sketch)
    (stakes : b'.stakes = b.stakes) : Sound b' := by
  refine s.of_sketch stakes (s.ordered.sameShapes h.sameShapes) h.constraintsMade
    (s.owned.congr h.entities) ?_
  rw [h.sameShapes.fields]
  exact s.listed.congr fun k => congrArg Option.isSome (h.params k)

theorem Sound.draw {e : Entity} (s : Sound b) (h : Sketch.Draws e b.sketch b'.sketch)
    (stakes : b'.stakes = b.stakes) : Sound b' := by
  have owned : b'.sketch.OwnedBy b.stakes := by
    intro o i
    rw [← s.owned o i]
    exact h.owned s.ordered o i
  have grown := s.listed.gains h.params
  refine s.of_sketch stakes (h.ordered s.ordered) (Nat.le_of_eq h.constraintsMade.symm) owned ?_
  rw [h.fields]
  refine grown.perm ?_
  rw [List.append_assoc, List.append_assoc]
  exact List.perm_append_comm.append_left _

theorem Sound.write {W : Handle → Prop} (s : Sound b) (h : b.sketch.Writes W b'.sketch)
    (stakes : b'.stakes = b.stakes) : Sound b' := by
  refine s.of_sketch stakes (s.ordered.sameShapes h.sameShapes)
    (Nat.le_of_eq h.constraintsMade.symm) (s.owned.congr h.entities) ?_
  rw [h.sameShapes.fields]
  exact s.listed.congr h.live

/-- A constraint claims objects that were free and brings parameters that nothing had. -/
theorem Sound.install {c : Constraint K} (s : Sound b) (h : c.Installs b.sketch b'.sketch)
    (stakes : b'.stakes = b.stakes ++ [c.stake]) : Sound b' where
  ordered := s.ordered.sameShapes h.sameShapes
  numbered := by
    intro k hk
    rw [stakes] at hk
    obtain ⟨old, new⟩ := h.numbered
    rcases List.mem_append.mp hk with hk | hk
    · have less := s.numbered k hk
      omega
    · rw [List.mem_singleton.mp hk]
      exact new
  distinct := by
    rw [stakes]
    refine List.pairwise_append.mpr ⟨s.distinct, List.pairwise_singleton _ _, ?_⟩
    intro k hk m hm same
    have less := s.numbered k hk
    rw [same, List.mem_singleton.mp hm] at less
    have new : b.sketch.constraintsMade ≤ c.stake.id.val := h.numbered.1
    omega
  owned := by
    rw [stakes]
    exact s.owned.claim h.unowned h.entities
  listed := by
    have grown := s.listed.gains h.params
    rw [h.sameShapes.fields, auxiliary, stakes]
    simpa [auxiliary, Constraint.stake] using grown

/-- A release takes marks off by number, and no other constraint has that number. -/
theorem Sound.remove {c : Constraint K} {l r : List Stake} (s : Sound b)
    (before : b.stakes = l ++ c.stake :: r) (h : (c.release b.sketch).Unchanged b'.sketch)
    (stakes : b'.stakes = l ++ r) : Sound b' := by
  have shapes := (c.sameShapes_release b.sketch).trans h.sameShapes
  have rest : (l ++ r).Sublist b.stakes := by
    rw [before]
    exact (List.sublist_cons_self _ _).append_left l
  have other : ∀ k ∈ l ++ r, k.id ≠ c.id := by
    have distinct := s.distinct
    rw [before] at distinct
    obtain ⟨-, right, across⟩ := List.pairwise_append.mp distinct
    intro k hk
    rcases List.mem_append.mp hk with hk | hk
    · exact across k hk c.stake (by simp)
    · exact Ne.symm ((List.pairwise_cons.mp right).1 k hk)
  refine ⟨s.ordered.sameShapes shapes, ?_, ?_, ?_, ?_⟩
  · intro k hk
    rw [stakes] at hk
    have less : k.id.val < (c.release b.sketch).constraintsMade := s.numbered k (rest.subset hk)
    have made := h.constraintsMade
    omega
  · rw [stakes]
    exact s.distinct.sublist rest
  · rw [stakes]
    have owned := s.owned
    rw [before] at owned
    exact (owned.release other).congr h.entities
  · have apart : (b.sketch.fields ++ b.auxiliary).Perm
        (c.auxiliary ++ (b.sketch.fields ++ (l ++ r).flatMap (·.auxiliary))) := by
      rw [auxiliary, before, List.flatMap_append, List.flatMap_append, List.flatMap_cons]
      exact ((List.perm_append_comm_assoc _ _ _).append_left _).trans
        (List.perm_append_comm_assoc _ _ _)
    rw [shapes.fields, auxiliary, stakes]
    exact (s.listed.perm apart).eraseAll.congr fun k => congrArg Option.isSome (h.params k)

/-- One change keeps a workbench sound. -/
theorem Change.sound (h : Change b b') (s : Sound b) : Sound b' := by
  cases h with
  | keep sketch stakes => exact s.keep sketch stakes
  | draw e sketch stakes => exact s.draw sketch stakes
  | write W sketch stakes => exact s.write sketch stakes
  | install c sketch stakes => exact s.install sketch stakes
  | remove c l r before sketch stakes => exact s.remove before sketch stakes

/-- So does any number of changes. -/
theorem Changes.sound (h : Changes b b') (s : Sound b) : Sound b' := by
  induction h with
  | refl => exact s
  | tail _ step ih => exact step.sound ih

end Workbench

end Drafting
