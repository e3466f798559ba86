import Drafting.Proofs.Reaching

namespace Drafting.Sketch

variable {K : Type} {s t : Sketch K} {id : ObjectId} {ids : List ObjectId} {i j : ConstraintId}

/-- Looks at all of the objects before the first is marked. -/
def claimEach (ids : List ObjectId) (i : ConstraintId) : Edit K SketchError Unit := do
  ids.forM fun id => ask (·.unowned id)
  ids.forM fun id => modify (·.mark [id] (fun _ => true) (some i))

def releaseEach (s : Sketch K) (ids : List ObjectId) (i : ConstraintId) : Sketch K :=
  ids.foldl (fun s id => s.release [id] i) s

theorem outcome_forM_ask {ε α : Type} (f : α → Sketch K → Except ε Unit) (as : List α)
    (s : Sketch K) : outcome (as.forM fun a => ask (f a)) s = (as.forM (f · s), s) := by
  induction as with
  | nil => rfl
  | cons a as ih =>
    have step : (a :: as).forM (fun a => ask (f a)) =
        ask (f a) >>= fun _ => as.forM fun a => ask (f a) := rfl
    have step' : (a :: as).forM (f · s) = f a s >>= fun _ => as.forM (f · s) := rfl
    rw [step, step', outcome_bind, outcome_ask]
    cases f a s with
    | ok u => exact ih
    | error e => rfl

theorem outcome_forM_modify {ε α : Type} (f : α → Sketch K → Sketch K) (as : List α)
    (s : Sketch K) : outcome (as.forM fun a => (modify (f a) : Edit K ε Unit)) s =
      (.ok (), as.foldl (fun s a => f a s) s) := by
  induction as generalizing s with
  | nil => rfl
  | cons a as ih => exact ih (f a s)

/-- An object that is marked stays so, whether it is marked again or not. -/
theorem mark_cons (s : Sketch K) (id : ObjectId) (ids : List ObjectId) (which : Entity → Bool)
    (o : Option ConstraintId) :
    (s.mark [id] which o).mark ids which o = s.mark (id :: ids) which o := by
  unfold mark
  rw [List.map_map]
  congr 1
  refine List.map_congr_left fun e _ => ?_
  by_cases first : e.id = id <;> by_cases mine : which e = true <;> simp [first, mine]

theorem foldl_mark (s : Sketch K) (ids : List ObjectId) (which : Entity → Bool)
    (o : Option ConstraintId) :
    ids.foldl (fun s id => s.mark [id] which o) s = s.mark ids which o := by
  induction ids generalizing s with
  | nil => exact (s.mark_nil which o).symm
  | cons id ids ih => rw [List.foldl_cons, ih, mark_cons]

/-- One object after another is claimed just if they are claimed together; otherwise no mark was
set yet. -/
theorem outcome_claimEach (s : Sketch K) (ids : List ObjectId) (i : ConstraintId) :
    outcome (claimEach ids i) s =
      match s.claim ids i with
      | .ok t => (.ok (), t)
      | .error e => (.error e, s) := by
  unfold claimEach claim
  rw [outcome_bind, outcome_forM_ask]
  cases ids.forM s.unowned with
  | ok u =>
    dsimp only
    rw [outcome_forM_modify, foldl_mark]
    rfl
  | error e => rfl

/-- Releasing one object after another takes off what releasing them together does. -/
theorem releaseEach_eq (s : Sketch K) (ids : List ObjectId) (i : ConstraintId) :
    s.releaseEach ids i = s.release ids i := s.foldl_mark ids _ none

theorem exists_claim_iff : (∃ t, s.claim ids i = .ok t) ↔ ∀ id ∈ ids, s.owner id = .ok none :=
  ⟨fun ⟨_, claimed⟩ => (claim_eq_ok_iff.mp claimed).1, fun free =>
    ⟨_, claim_eq_ok_iff.mpr ⟨free, rfl⟩⟩⟩

theorem owner_claimed (claimed : s.claim ids i = .ok t) (id : ObjectId) :
    t.owner id = if id ∈ ids then .ok (some i) else s.owner id := by
  obtain ⟨free, rfl⟩ := claim_eq_ok_iff.mp claimed
  have found := entity?_map (s.entities_claimed ids (some i)) (fun e => by split <;> rfl) id
  cases he : s.entity? id with
  | none =>
    have other : id ∉ ids := fun listed => by
      obtain ⟨e, he', -⟩ := owner_eq_ok_iff.mp (free id listed)
      cases he.symm.trans he'
    rw [he] at found
    rw [if_neg other, owner_eq_error_iff.mpr ⟨found, rfl⟩, owner_eq_error_iff.mpr ⟨he, rfl⟩]
  | some e =>
    rw [he, Option.map_some, id_of_entity? he] at found
    rw [owner_eq_ok_iff.mpr ⟨_, found, rfl⟩, owner_eq_ok_iff.mpr ⟨e, he, rfl⟩]
    split <;> rfl

/-- Releasing what was just claimed takes off the marks that were set and no others, as none of the
objects had one. -/
theorem release_claimed (keyed : s.Keyed) (claimed : s.claim ids i = .ok t) :
    t.release ids i = s := by
  obtain ⟨free, rfl⟩ := claim_eq_ok_iff.mp claimed
  have same : ((s.mark ids (fun _ => true) (some i)).release ids i).entities = s.entities := by
    rw [entities_release, entities_claimed, List.map_map]
    refine (List.map_congr_left fun e he => ?_).trans (List.map_id _)
    by_cases listed : e.id ∈ ids
    · have unmarked := Except.ok.inj ((owner_of_mem keyed he).symm.trans (free e.id listed))
      simp [listed, ← unmarked]
    · simp [listed]
  calc (s.mark ids (fun _ => true) (some i)).release ids i
      = { s with entities := ((s.mark ids (fun _ => true) (some i)).release ids i).entities } := rfl
    _ = s := by rw [same]

/-- A claim on any objects, one after another or together, is made just if all of them are there and
free, and is refused for the first that is not, by name and with its owner if there is one; then the
sketch is as it was. What is claimed is marked, and nothing else is changed; where objects have
numbers of their own, as on every sketch that is reached, releasing it gives the sketch back. A
release takes no mark of another owner off. -/
theorem claim_all_or_nothing (s : Sketch K) (ids : List ObjectId) (i : ConstraintId) :
    (outcome (claimEach ids i) s =
      match s.claim ids i with
      | .ok t => (.ok (), t)
      | .error e => (.error e, s)) ∧
    ((∃ t, s.claim ids i = .ok t) ↔ ∀ id ∈ ids, s.owner id = .ok none) ∧
    (∀ e, s.claim ids i = .error e ↔ ∃ before id after, ids = before ++ id :: after ∧
      (∀ b ∈ before, s.owner b = .ok none) ∧ s.Refuses id e) ∧
    (∀ t, s.claim ids i = .ok t →
      (∀ id, t.owner id = if id ∈ ids then .ok (some i) else s.owner id) ∧
      (t = { s with entities := t.entities } ∧
        t.entities.map Entity.drawn = s.entities.map Entity.drawn) ∧
      (s.Keyed → t.releaseEach ids i = s)) ∧
    ∀ ids' j, s.releaseEach ids' j = s.release ids' j ∧
      ∀ id k, k ≠ j → s.owner id = .ok (some k) → (s.release ids' j).owner id = .ok (some k) := by
  refine ⟨s.outcome_claimEach ids i, exists_claim_iff, fun e => claim_eq_error_iff,
    fun t claimed => ⟨owner_claimed claimed, ?_, ?_⟩, fun ids' j => ⟨s.releaseEach_eq ids' j, ?_⟩⟩
  · obtain ⟨-, rfl⟩ := claim_eq_ok_iff.mp claimed
    exact ⟨rfl, (s.sameShapes_mark ids _ _).drawn⟩
  · intro keyed
    rw [releaseEach_eq]
    exact release_claimed keyed claimed
  · intro id k other marked
    exact (s.owned_release ids' j id k).mpr ⟨marked, fun mine => other mine.1⟩

def halfOwned : Board Float :=
  [.addPoint ⟨0, 0⟩, .addPoint ⟨1, 0⟩, .claim [⟨2⟩] ⟨0⟩].foldl Act.run Board.empty

theorem claim_all_or_nothing_halfOwned :
    outcome (claimEach [⟨1⟩, ⟨2⟩, ⟨9⟩] ⟨1⟩) halfOwned.sketch =
        (.error (.alreadyManaged ⟨2⟩ ⟨0⟩), halfOwned.sketch) ∧
      ∃ t, halfOwned.sketch.claim [⟨1⟩, ⟨1⟩] ⟨1⟩ = .ok t ∧
        t.owner ⟨1⟩ = .ok (some ⟨1⟩) ∧ t.owner ⟨2⟩ = .ok (some ⟨0⟩) ∧
        t.releaseEach [⟨1⟩, ⟨1⟩] ⟨1⟩ = halfOwned.sketch := by
  have keyed : halfOwned.sketch.Keyed :=
    (Board.wellFormed_foldl fun act hact b => by
      simp only [List.mem_cons, List.not_mem_nil, or_false] at hact
      rcases hact with rfl | rfl | rfl <;> trivial).toOrdered.keyed
  have free : halfOwned.sketch.owner ⟨1⟩ = .ok none := by decide +kernel
  have owned : halfOwned.sketch.owner ⟨2⟩ = .ok (some ⟨0⟩) := by decide +kernel
  constructor
  · obtain ⟨each, -, refused, -⟩ := claim_all_or_nothing halfOwned.sketch [⟨1⟩, ⟨2⟩, ⟨9⟩] ⟨1⟩
    have second := (refused _).mpr ⟨[⟨1⟩], ⟨2⟩, [⟨9⟩], rfl, by simpa using free, .owned owned⟩
    rw [each, second]
  · obtain ⟨-, made, -, marks, -⟩ := claim_all_or_nothing halfOwned.sketch [⟨1⟩, ⟨1⟩] ⟨1⟩
    obtain ⟨t, claimed⟩ := made.mpr (by simpa using free)
    obtain ⟨owners, -, undone⟩ := marks t claimed
    exact ⟨t, claimed, owners ⟨1⟩, (owners ⟨2⟩).trans owned, undone keyed⟩

end Drafting.Sketch
