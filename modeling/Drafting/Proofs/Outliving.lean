import Drafting.Proofs.Reaching

namespace Drafting

open Constant (Raw)

variable {K : Type}

/-- What is done to a sketch and the constraints on it, with nothing forbidden. A constraint that is
dropped stays on the board: dropping it does nothing. -/
inductive Move (K : Type) where
  | act (a : Act K)
  | editParam (h : Handle) (f : Param K → Param K)
  /-- A modifier is applied. -/
  | modify (c : Constraint K)
  /-- The number of a constraint is used up by something else. -/
  | takeNumber
  /-- The constants of a constraint are set or measured, or it is made internal. -/
  | amend (id : ConstraintId) (constants : Table (Raw K)) (isInternal : Bool)

section Run

variable [Scalar K] [Written K]

def Move.run (b : Board K) : Move K → Board K
  | .act a => a.run b
  | .editParam h f => { b with sketch := { b.sketch with params := b.sketch.params.update h f } }
  | .modify c => { b with sketch := (outcome c.modify b.sketch).2 }
  | .takeNumber => { b with sketch := (Sketch.nextConstraint.run b.sketch).2 }
  | .amend id constants isInternal =>
    { b with
      made := b.made.map fun c =>
        if c.id = id then { c with constants := constants, isInternal := isInternal } else c }

def Board.after (b : Board K) (moves : List (Move K)) : Board K := moves.foldl Move.run b

end Run

/-- What all constraints brought along and marked, also those that are dropped or released. -/
def Board.stakes (b : Board K) : List Stake := b.made.map Constraint.stake

theorem Store.isSome_get?_update (s : Store K) (h : Handle) (f : Param K → Param K) (k : Handle) :
    ((s.update h f).get? k).isSome = (s.get? k).isSome := by
  by_cases same : k = h
  · subst same
    simp
  · rw [s.get?_update_of_ne same]

/-- A stale handle does nothing, neither here nor where it would take a parameter away. -/
theorem Store.update_of_dead {s : Store K} {h : Handle} (dead : s.get? h = none)
    (f : Param K → Param K) : s.update h f = s := by
  unfold Store.update
  split
  · rfl
  · rename_i p live
    rw [dead] at live
    cases live

theorem Store.erase_of_dead {s : Store K} {h : Handle} (dead : s.get? h = none) :
    s.erase h = s := by
  unfold Store.erase
  rw [dif_neg (by simp [dead])]

namespace Sketch

variable {s t : Sketch K} {h : Handle}

/-- The handle has no parameter and no value, and what is done through it is not done. -/
structure Stale [Scalar K] (s : Sketch K) (h : Handle) : Prop where
  missing : s.param? h = none
  value : s.value h = Scalar.nan
  setValue : ∀ x, s.setValue h x = s
  removeParam : s.removeParam h = s

/-- A handle is stale as soon as its parameter is gone. -/
theorem stale_of_missing [Scalar K] (missing : s.param? h = none) : s.Stale h where
  missing := missing
  value := by rw [Sketch.value, missing]
  setValue x := by
    rw [Sketch.setValue, Store.update_of_dead missing]
  removeParam := by
    rw [Sketch.removeParam, Store.erase_of_dead missing]

theorem param?_removeParam (s : Sketch K) (h : Handle) : (s.removeParam h).param? h = none :=
  s.params.get?_erase_self h

theorem param?_clear (s : Sketch K) (h : Handle) : s.clear.param? h = none := by
  refine (Store.get?_eraseAll s.params _ h).trans ?_
  split
  · rfl
  · rename_i dead
    rw [Store.mem_handles] at dead
    simpa using dead

end Sketch

namespace Board

variable {b b' b'' : Board K} {lost : List Handle} {k : Stake} {h : Handle} {id : ObjectId}

/-- What a constraint brought along or marked has been given, to it and to nothing else. -/
structure Settled (b : Board K) : Prop where
  ordered : b.sketch.Ordered
  given : ∀ h ∈ b.sketch.fields, b.sketch.params.Given h
  apart : ∀ k ∈ b.stakes, ∀ h ∈ k.auxiliary, b.sketch.Apart h
  numbered : ∀ k ∈ b.stakes, k.id.val < b.sketch.constraintsMade
  known : ∀ k ∈ b.stakes, ∀ id ∈ k.managed, id.val ≤ b.sketch.lastObject
  distinct : b.stakes.Pairwise fun k m => k.id ≠ m.id ∧ k.auxiliary.Disjoint m.auxiliary

theorem Settled.empty : (empty : Board K).Settled where
  ordered := Sketch.Ordered.empty
  given := by simp [Board.empty, Sketch.empty, Sketch.fields]
  apart := by simp [Board.empty, stakes]
  numbered := by simp [Board.empty, stakes]
  known := by simp [Board.empty, stakes]
  distinct := .nil

/-- Only the sketch and the stakes count. -/
theorem Settled.congr (settled : b.Settled) (sketch : b'.sketch = b.sketch)
    (stakes : b'.stakes = b.stakes) : b'.Settled := by
  obtain ⟨ordered, given, apart, numbered, known, distinct⟩ := settled
  constructor <;> simpa only [sketch, stakes]

/-- The later board has the handles, objects and constraints of the earlier one, or new ones. -/
structure Ensues (b b' : Board K) : Prop where
  aging : Sketch.Aging b.sketch b'.sketch
  follows : b.sketch.Follows b'.sketch
  stakes : b.stakes ⊆ b'.stakes

theorem Ensues.refl (b : Board K) : b.Ensues b := ⟨.refl _, .refl _, List.Subset.refl _⟩

theorem Ensues.trans (e : b.Ensues b') (e' : b'.Ensues b'') : b.Ensues b'' :=
  ⟨e.aging.trans e'.aging, e.follows.trans e'.follows, List.Subset.trans e.stakes e'.stakes⟩

theorem Steps.stakes_eq (step : Steps lost b b') :
    b'.stakes = b.stakes ∨
      ∃ c : Constraint K, b'.stakes = b.stakes ++ [c.stake] ∧ c.Installs b.sketch b'.sketch := by
  rcases step.made with same | ⟨c, more, installs⟩
  · exact .inl (congrArg (List.map Constraint.stake) same)
  · exact .inr ⟨c, by simp [Board.stakes, more], installs⟩

theorem Steps.mem_stakes (step : Steps lost b b') (hk : k ∈ b'.stakes) :
    k ∈ b.stakes ∨ ∃ c : Constraint K, k = c.stake ∧ c.Installs b.sketch b'.sketch := by
  rcases step.stakes_eq with same | ⟨c, more, installs⟩
  · exact .inl (same ▸ hk)
  · rw [more] at hk
    rcases List.mem_append.mp hk with old | new
    · exact .inl old
    · exact .inr ⟨c, List.mem_singleton.mp new, installs⟩

theorem Steps.ensues (step : Steps lost b b') : b.Ensues b' := by
  refine ⟨step.aging, step.sketch.follows, ?_⟩
  rcases step.stakes_eq with same | ⟨c, more, -⟩
  · rw [same]
    exact List.Subset.refl _
  · rw [more]
    exact List.subset_append_left _ _

/-- A constraint that is made brings along what was not given before. -/
theorem Steps.fresh {c : Constraint K} (step : Steps lost b b')
    (installs : c.Installs b.sketch b'.sketch) :
    ∀ h ∈ c.auxiliary, ¬ b.sketch.params.Given h :=
  Store.Ages.fresh step.aging installs.params

theorem Steps.settled (step : Steps lost b b') (settled : b.Settled) : b'.Settled where
  ordered := step.sketch.ordered settled.ordered
  given := step.sketch.given step.aging settled.given
  apart k hk h hh := by
    rcases step.mem_stakes hk with old | ⟨c, rfl, installs⟩
    · exact step.sketch.apart step.aging (settled.apart k old h hh)
    · refine ⟨Store.given_of_live (installs.params.live h hh), fun field => ?_⟩
      rw [installs.sameShapes.fields] at field
      exact step.fresh installs h hh (settled.given h field)
  numbered k hk := by
    rcases step.mem_stakes hk with old | ⟨c, rfl, installs⟩
    · exact Nat.lt_of_lt_of_le (settled.numbered k old) step.constraintsMade
    · exact installs.numbered.2
  known k hk id hid := by
    rcases step.mem_stakes hk with old | ⟨c, rfl, installs⟩
    · exact Nat.le_trans (settled.known k old id hid) step.sketch.follows.lastObject
    · obtain ⟨e, he, -⟩ := Sketch.owner_eq_ok_iff.mp (installs.unowned id hid)
      obtain ⟨mem, rfl⟩ := (Sketch.entity?_eq_some_iff settled.ordered).mp he
      rw [installs.lastObject]
      exact settled.ordered.numbered e mem
  distinct := by
    rcases step.stakes_eq with same | ⟨c, more, installs⟩
    · rw [same]
      exact settled.distinct
    · rw [more, List.pairwise_append]
      refine ⟨settled.distinct, List.pairwise_singleton _ _, fun k hk m hm => ?_⟩
      obtain rfl := List.mem_singleton.mp hm
      constructor
      · intro same
        have before := settled.numbered k hk
        have later := installs.numbered.1
        rw [same] at before
        exact Nat.lt_irrefl _ (Nat.lt_of_lt_of_le before later)
      · intro h hh hh'
        exact step.fresh installs h hh' (settled.apart k hk h hh).given

variable [Scalar K] [Written K]

/-- A move is a step, or it changes nothing but what constraints are set to. -/
theorem steps_move (o : b.sketch.Ordered) (move : Move K) : (∃ lost, Steps lost b (move.run b)) ∨
    (move.run b).sketch = b.sketch ∧ (move.run b).stakes = b.stakes := by
  cases move with
  | act a => exact .inl ⟨a.lost, steps_run o a⟩
  | editParam h f =>
    refine .inl ⟨[], steps_of (.keep ⟨rfl, rfl⟩ fun k _ _ live => ?_)
      (.update b.sketch.params h f) (Nat.le_refl _)⟩
    exact (b.sketch.params.isSome_get?_update h f k).trans live
  | modify c =>
    exact .inl ⟨[], steps_write (c.writes_modify b.sketch) (c.aging_modify b.sketch)⟩
  | takeNumber =>
    exact .inl ⟨[], steps_of (.keep ⟨rfl, rfl⟩ fun _ _ _ live => live)
      (Sketch.aging_of_params rfl) (Nat.le_succ _)⟩
  | amend number constants isInternal =>
    refine .inr ⟨rfl, List.map_map.trans (List.map_congr_left fun c _ => ?_)⟩
    simp only [Function.comp_apply]
    split <;> rfl

/-- One move, whatever it is. -/
theorem settled_run (settled : b.Settled) (move : Move K) :
    (move.run b).Settled ∧ b.Ensues (move.run b) := by
  rcases steps_move settled.ordered move with ⟨lost, step⟩ | ⟨sketch, stakes⟩
  · exact ⟨step.settled settled, step.ensues⟩
  · refine ⟨settled.congr sketch stakes, ?_, ?_, fun k hk => stakes ▸ hk⟩
    · rw [sketch]
      exact .refl _
    · rw [sketch]
      exact .refl _

/-- Any number of moves, by induction on them. -/
theorem settled_after (settled : b.Settled) (moves : List (Move K)) :
    (b.after moves).Settled ∧ b.Ensues (b.after moves) := by
  induction moves generalizing b with
  | nil => exact ⟨settled, .refl b⟩
  | cons move moves ih =>
    obtain ⟨next, first⟩ := settled_run settled move
    obtain ⟨last, later⟩ := ih next
    exact ⟨last, first.trans later⟩

omit [Written K] in
/-- What was given and taken away never comes back. -/
theorem Ensues.stale (e : b.Ensues b') (given : b.sketch.params.Given h)
    (dead : b.sketch.param? h = none) : b'.sketch.Stale h := by
  refine Sketch.stale_of_missing ?_
  by_contra live
  have before := e.aging.live h given (Option.isSome_iff_ne_none.mpr live)
  have dead : b.sketch.params.get? h = none := dead
  simp [dead] at before

omit [Scalar K] [Written K] in
/-- A number that was given before the sketch was cleared. -/
theorem Ensues.unknown (e : b.Ensues b') (cleared : b.sketch.entities = [])
    (old : id.val ≤ b.sketch.lastObject) : b'.sketch.entity id = .error (.unknownObject id) := by
  have missing : b'.sketch.entity? id = none := by
    by_contra found
    obtain ⟨d, hd⟩ := Option.ne_none_iff_exists'.mp found
    have number := Sketch.id_of_entity? hd
    rcases e.follows.objects d (List.mem_of_find?_eq_some hd) with ⟨x, hx, -⟩ | new
    · simp [cleared] at hx
    · rw [number] at new
      exact Nat.lt_irrefl _ (Nat.lt_of_lt_of_le new old)
  rw [Sketch.entity, missing]

structure Undoes (c : Constraint K) (s t : Sketch K) : Prop where
  params : ∀ h, t.param? h = if h ∈ c.auxiliary then none else s.param? h
  entities : t.entities = s.entities.map fun e =>
    if e.id ∈ c.managed ∧ e.owner = some c.id then { e with owner := none } else e
  lastObject : t.lastObject = s.lastObject
  constraintsMade : t.constraintsMade = s.constraintsMade

omit [Scalar K] [Written K] in
/-- A release says nothing of how the sketch came about, so that it may be as late as one likes. -/
theorem undoes_release (c : Constraint K) (s : Sketch K) : Undoes c s (c.release s) :=
  ⟨c.param?_release s, c.entities_release s, rfl, rfl⟩

/-- What a constraint brought along and marked is on a later board its own, if it is there. -/
structure StillOwn (c : Constraint K) (b b' : Board K) : Prop where
  live : ∀ h ∈ c.auxiliary, (b'.sketch.param? h).isSome → (b.sketch.param? h).isSome
  other : ∀ h ∈ c.auxiliary, h ∉ b'.sketch.fields
  distinct : ∀ d ∈ b'.made,
    d.stake = c.stake ∨ d.id ≠ c.id ∧ d.auxiliary.Disjoint c.auxiliary
  objects : ∀ e ∈ b'.sketch.entities, e.id ∈ c.managed →
    ∃ d ∈ b.sketch.entities, d.id = e.id ∧ d.shape = e.shape

omit [Scalar K] [Written K] in
theorem Ensues.stillOwn (e : b.Ensues b') (settled : b.Settled) (settled' : b'.Settled)
    {c : Constraint K} (made : c ∈ b.made) : StillOwn c b b' := by
  have before : c.stake ∈ b.stakes := List.mem_map_of_mem made
  have after := e.stakes before
  refine ⟨fun h hh => e.aging.live h (settled.apart _ before h hh).given,
    fun h hh => (settled'.apart _ after h hh).other, fun d hd => ?_, fun x hx target => ?_⟩
  · have symm : Std.Symm fun k m : Stake => k.id ≠ m.id ∧ k.auxiliary.Disjoint m.auxiliary :=
      ⟨fun _ _ apart => ⟨apart.1.symm, fun _ hh hh' => apart.2 hh' hh⟩⟩
    by_cases same : d.stake = c.stake
    · exact .inl same
    · exact .inr (settled'.distinct.forall (List.mem_map_of_mem hd) after same)
  · rcases e.follows.objects x hx with old | new
    · exact old
    · have known := settled.known _ before x.id target
      exact absurd new (Nat.not_lt.mpr known)

/-- Whatever is done, a handle of a parameter that was taken away or cleared is stale for good, and
so is the number of an object from before the sketch was cleared. A constraint takes back, whenever
it is released, the parameters it brought along and its own marks, as far as they are there, and
nothing else; and what is there of them has not become anything else in the meantime. -/
theorem stale_harmless (first second third : List (Move K)) :
    let b := (empty : Board K).after first
    let b' := b.after second
    (∀ h, (b.sketch.param? h).isSome → b'.sketch.param? h = none →
      (b'.after third).sketch.Stale h) ∧
    (∀ h, (b.sketch.removeParam h).param? h = none ∧ b.sketch.clear.param? h = none) ∧
    (∀ id, b.sketch.contains id → (b'.after (.act .clear :: third)).sketch.entity id =
      .error (.unknownObject id)) ∧
    ∀ c ∈ b.made, Undoes c b'.sketch (c.release b'.sketch) ∧ StillOwn c b b' := by
  intro b b'
  have settled : b.Settled := (settled_after .empty first).1
  obtain ⟨settled', later⟩ : b'.Settled ∧ b.Ensues b' := settled_after settled second
  refine ⟨fun h live dead => ?_, fun h => ⟨b.sketch.param?_removeParam h, b.sketch.param?_clear h⟩,
    fun id known => ?_, fun c made => ⟨undoes_release c b'.sketch, ?_⟩⟩
  · have given := later.aging.given h (Store.given_of_live live)
    exact (settled_after settled' third).2.stale given dead
  · obtain ⟨e, he⟩ := Option.isSome_iff_exists.mp known
    obtain ⟨mem, rfl⟩ := (Sketch.entity?_eq_some_iff settled.ordered).mp he
    have old := Nat.le_trans (settled.ordered.numbered e mem) later.follows.lastObject
    have cleared := (settled_run settled' (.act .clear)).1
    exact (settled_after cleared third).2.unknown rfl old
  · exact later.stillOwn settled settled' made

def placed : List (Move Float) :=
  [.act (.addSegment ⟨0, 0⟩ ⟨0, 1⟩), .act (.addPoint ⟨1, 0⟩), .act (.addPoint ⟨5, 5⟩),
    .act (.addBezier ⟨0, 0⟩ ⟨1, 2⟩ ⟨3, 2⟩ ⟨4, 0⟩),
    .act (.make .mirror [⟨3⟩, ⟨4⟩, ⟨5⟩] .empty .standard),
    .act (.create .pointOnBezier [⟨4⟩, ⟨10⟩])]

def removed : List (Move Float) := [.act (.removeParam ⟨19, 1⟩)]

/-- The slot of the parameter that was taken away is used again, and another constraint mirrors the
point. -/
def replaced : List (Move Float) :=
  [.act (.addParam ⟨7, "u", []⟩), .act (.release [⟨5⟩] ⟨0⟩),
    .act (.make .mirror [⟨3⟩, ⟨4⟩, ⟨5⟩] .empty .standard)]

/-- Both constraints are released only then, and take neither away. -/
theorem stale_harmless_replaced :
    let b := (empty : Board Float).after placed
    let b' := b.after (removed ++ replaced)
    b.stakes = [⟨⟨0⟩, [⟨5⟩], []⟩, ⟨⟨1⟩, [], [⟨19, 1⟩]⟩] ∧ b'.sketch.Stale ⟨19, 1⟩ ∧
      ∀ c ∈ b.made, ((c.release b'.sketch).param? ⟨19, 3⟩).isSome ∧
        (c.release b'.sketch).owner ⟨5⟩ = .ok (some ⟨2⟩) := by
  intro b b'
  have stakes : b.stakes = [⟨⟨0⟩, [⟨5⟩], []⟩, ⟨⟨1⟩, [], [⟨19, 1⟩]⟩] := by decide +kernel
  refine ⟨stakes, ?_, fun c made => ?_⟩
  · obtain ⟨stale, -⟩ := stale_harmless placed removed replaced
    have run : b' = (b.after removed).after replaced := List.foldl_append
    rw [run]
    exact stale ⟨19, 1⟩ (by decide +kernel) (by decide +kernel)
  · obtain ⟨-, -, -, late⟩ := stale_harmless placed (removed ++ replaced) []
    obtain ⟨undoes, own⟩ := late c made
    constructor
    · have reused : (b'.sketch.param? ⟨19, 3⟩).isSome := by decide +kernel
      have apart : ⟨19, 3⟩ ∉ c.auxiliary := fun hh =>
        absurd (own.live _ hh reused) (by decide +kernel)
      rwa [undoes.params, if_neg apart]
    · have owned : b'.sketch.owner ⟨5⟩ = .ok (some ⟨2⟩) := by decide +kernel
      obtain ⟨e, he, owner⟩ := Sketch.owner_eq_ok_iff.mp owned
      have held : c.stake ∈ b.stakes := List.mem_map_of_mem made
      have other : c.id ≠ ⟨2⟩ := by
        rw [stakes] at held
        rcases List.mem_pair.mp held with same | same
        · exact ne_of_eq_of_ne (congrArg Stake.id same) (by decide)
        · exact ne_of_eq_of_ne (congrArg Stake.id same) (by decide)
      refine (Sketch.owner_map undoes.entities fun e => by split <;> rfl).mpr ⟨e, he, ?_⟩
      rw [if_neg]
      · exact owner
      · rintro ⟨-, mine⟩
        exact other (Option.some.inj (mine.symm.trans owner))

end Board

end Drafting
