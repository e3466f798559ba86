import Drafting.Constraint.Memo
import Drafting.Double
import Drafting.Proofs.Construction

namespace Drafting

open Constant (Definition Raw Resolved)

variable {K : Type} [Scalar K] [Written K]

/-- Constants are resolved from what was given under the names of the definitions. -/
theorem Constant.resolve_congr {defs : List Definition} {t u : Table (Raw K)}
    (agree : ∀ d ∈ defs, t.get? d.name = u.get? d.name) : resolve defs t = resolve defs u := by
  have same : (defs.filterMap fun d => (t.get? d.name).map fun raw => (d.name, d.resolve raw)) =
      defs.filterMap fun d => (u.get? d.name).map fun raw => (d.name, d.resolve raw) :=
    List.filterMap_congr fun d hd => by rw [agree d hd]
  rw [resolve, resolve, same]

namespace Memo

section Refresh

variable {applies : Kind → Bool} {measure : Constraint K → Except ConstraintError (Constraint K)}
  {m : Memo K}

omit [Scalar K] [Written K]

theorem refresh_of_not (other : applies m.constraint.kind = false) :
    outcome (refresh applies measure) m = (.ok (), m) := by
  rw [refresh, outcome_bind_ok (outcome_get m), other]
  rfl

/-- A measurement that is refused forgets nothing. -/
theorem refresh_of_error (known : applies m.constraint.kind = true) {e : ConstraintError}
    (refused : measure m.constraint = .error e) :
    outcome (refresh applies measure) m = (.error e, m) := by
  rw [refresh, outcome_bind_ok (outcome_get m), known, refused]
  rfl

theorem refresh_of_ok (known : applies m.constraint.kind = true) {c : Constraint K}
    (measured : measure m.constraint = .ok c) :
    outcome (refresh applies measure) m = (.ok (), new c) := by
  rw [refresh, outcome_bind_ok (outcome_get m), known, measured]
  rfl

theorem refresh_error {e : ConstraintError} {n : Memo K}
    (h : outcome (refresh applies measure) m = (.error e, n)) : n = m := by
  cases known : applies m.constraint.kind with
  | false => exact nomatch (refresh_of_not known).symm.trans h
  | true =>
    cases measured : measure m.constraint with
    | error e' => exact (Prod.mk.inj ((refresh_of_error known measured).symm.trans h)).2.symm
    | ok c => exact nomatch (refresh_of_ok known measured).symm.trans h

theorem exists_of_refresh (known : applies m.constraint.kind = true) {n : Memo K}
    (h : outcome (refresh applies measure) m = (.ok (), n)) :
    ∃ c, measure m.constraint = .ok c ∧ n = new c := by
  cases measured : measure m.constraint with
  | error e => exact nomatch (refresh_of_error known measured).symm.trans h
  | ok c => exact ⟨c, rfl, (Prod.mk.inj ((refresh_of_ok known measured).symm.trans h)).2.symm⟩

end Refresh

theorem outcome_residuals (m : Memo K) : outcome residuals m =
    (m.constraint.kind.residuals m.constraint.params (resolve.run m).1, (resolve.run m).2) := by
  rw [residuals, outcome_bind_ok (outcome_liftM resolve m), outcome_bind_ok (outcome_get _)]
  have same : (resolve.run m).2.constraint = m.constraint := rfl
  rw [same]
  cases m.constraint.kind.residuals m.constraint.params (resolve.run m).1 <;> rfl

/-- What is remembered, if anything is, is what the constants resolve to. -/
def Fresh (m : Memo K) : Prop := ∀ r, m.resolved? = some r → r = m.constraint.resolved

/-- Nothing is remembered at the start, so that nothing is out of date. -/
theorem fresh_new (c : Constraint K) : (new c).Fresh := fun _ h => nomatch h

/-- What was remembered is the answer, and is worked out where nothing was. -/
theorem Fresh.resolve {m : Memo K} (fresh : m.Fresh) :
    resolve.run m = (m.constraint.resolved, ⟨m.constraint, some m.constraint.resolved⟩) := by
  have answer : m.resolved?.getD m.constraint.resolved = m.constraint.resolved := by
    cases h : m.resolved? with
    | none => rfl
    | some r => exact fresh r h
  have step : Memo.resolve.run m = (m.resolved?.getD m.constraint.resolved,
      ⟨m.constraint, some (m.resolved?.getD m.constraint.resolved)⟩) := rfl
  rw [step, answer]

theorem Fresh.residuals {m : Memo K} (fresh : m.Fresh) :
    outcome residuals m =
      (m.constraint.residuals, ⟨m.constraint, some m.constraint.resolved⟩) := by
  rw [outcome_residuals, fresh.resolve]
  rfl

/-- What is given under a name that nothing defines is not seen. -/
theorem Fresh.unseen {m : Memo K} (fresh : m.Fresh) {name : String} (value : Raw K)
    (undefined : ∀ d ∈ m.constraint.kind.definitions, d.name ≠ name) :
    let edited := ((setConstant name value).run m).2
    (Memo.resolve.run edited).1 = (Memo.resolve.run m).1 ∧
      (outcome Memo.residuals edited).1 = (outcome Memo.residuals m).1 := by
  intro edited
  have same : edited.constraint.resolved = m.constraint.resolved :=
    Constant.resolve_congr fun d hd => Table.get?_insert_of_ne _ value (undefined d hd)
  have new : edited.Fresh := fresh_new _
  refine ⟨?_, ?_⟩
  · rw [new.resolve, fresh.resolve, same]
  · rw [new.residuals, fresh.residuals, Constraint.residuals, same]
    rfl

inductive Use (K : Type) where
  | resolve
  | residuals
  | setConstant (name : String) (value : Raw K)
  | initConstants (s : Sketch K)
  | resync (s : Sketch K)

/-- What a use leaves, whether it failed or not. -/
def Use.run : Use K → Memo K → Memo K
  | .resolve, m => (Memo.resolve.run m).2
  | .residuals, m => (outcome Memo.residuals m).2
  | .setConstant name value, m => ((Memo.setConstant name value).run m).2
  | .initConstants s, m => (outcome (Memo.initConstants s) m).2
  | .resync s, m => (outcome (Memo.resync s) m).2

/-- What it makes of a constraint without a memory. -/
def Use.change : Use K → Constraint K → Constraint K
  | .resolve, c => c
  | .residuals, c => c
  | .setConstant name value, c => c.setConstant name value
  | .initConstants s, c => (c.initConstants s).toOption.getD c
  | .resync s, c => (c.resync s).toOption.getD c

def after (c : Constraint K) (uses : List (Use K)) : Memo K :=
  uses.foldl (fun m use => use.run m) (new c)

/-- A measurement keeps what it can remember and does what it does without a memory, if what it
leaves alone is what the measurement leaves alone too. -/
theorem fresh_refresh {applies : Kind → Bool}
    {measure : Constraint K → Except ConstraintError (Constraint K)} {m : Memo K}
    (fresh : m.Fresh)
    (others : applies m.constraint.kind = false → measure m.constraint = .ok m.constraint) :
    (outcome (refresh applies measure) m).2.Fresh ∧
    (outcome (refresh applies measure) m).2.constraint =
      (measure m.constraint).toOption.getD m.constraint := by
  cases known : applies m.constraint.kind with
  | false =>
    rw [refresh_of_not known, others known]
    exact ⟨fresh, rfl⟩
  | true =>
    cases measured : measure m.constraint with
    | error e =>
      rw [refresh_of_error known measured]
      exact ⟨fresh, rfl⟩
    | ok c =>
      rw [refresh_of_ok known measured]
      exact ⟨fresh_new c, rfl⟩

/-- One use, whether it fails or not. -/
theorem Use.fresh_run (use : Use K) {m : Memo K} (fresh : m.Fresh) :
    (use.run m).Fresh ∧ (use.run m).constraint = use.change m.constraint := by
  cases use with
  | resolve =>
    rw [run, fresh.resolve]
    exact ⟨fun r h => (Option.some.inj h).symm, rfl⟩
  | residuals =>
    rw [run, fresh.residuals]
    exact ⟨fun r h => (Option.some.inj h).symm, rfl⟩
  | setConstant name value => exact ⟨fresh_new _, rfl⟩
  | initConstants s =>
    refine fresh_refresh fresh fun other => ?_
    rw [Constraint.initConstants, if_pos (by simpa using other)]
    rfl
  | resync s =>
    refine fresh_refresh fresh fun other => ?_
    rw [Constraint.resync, if_neg (by simp [other])]
    rfl

/-- A use changes constants alone. -/
theorem Use.exists_change (use : Use K) (c : Constraint K) :
    ∃ t, use.change c = { c with constants := t } := by
  cases use with
  | resolve => exact ⟨c.constants, rfl⟩
  | residuals => exact ⟨c.constants, rfl⟩
  | setConstant name value => exact ⟨c.constants.insert name value, rfl⟩
  | initConstants s =>
    cases measured : c.initConstants s with
    | error e => exact ⟨c.constants, by rw [change, measured]; rfl⟩
    | ok d =>
      obtain ⟨t, rfl⟩ := Constraint.initConstants_eq_ok measured
      exact ⟨t, by rw [change, measured]; rfl⟩
  | resync s =>
    cases measured : c.resync s with
    | error e => exact ⟨c.constants, by rw [change, measured]; rfl⟩
    | ok d =>
      obtain ⟨t, rfl⟩ := Constraint.resync_eq_ok measured
      exact ⟨t, by rw [change, measured]; rfl⟩

/-- Uses in a row, by induction on them. -/
theorem fresh_foldl (uses : List (Use K)) {m : Memo K} (fresh : m.Fresh) :
    (uses.foldl (fun m use => use.run m) m).Fresh ∧
    (uses.foldl (fun m use => use.run m) m).constraint =
      uses.foldl (fun c use => use.change c) m.constraint := by
  induction uses generalizing m with
  | nil => exact ⟨fresh, rfl⟩
  | cons use uses ih =>
    obtain ⟨kept, changed⟩ := use.fresh_run fresh
    rw [List.foldl_cons, List.foldl_cons, ← changed]
    exact ih kept

theorem exists_foldl_change (uses : List (Use K)) (c : Constraint K) :
    ∃ t, uses.foldl (fun c use => use.change c) c = { c with constants := t } := by
  induction uses generalizing c with
  | nil => exact ⟨c.constants, rfl⟩
  | cons use uses ih =>
    obtain ⟨t, changed⟩ := use.exists_change c
    obtain ⟨u, rest⟩ := ih { c with constants := t }
    exact ⟨u, by rw [List.foldl_cons, changed, rest]⟩

/-- Whatever was done with the constants of a constraint, and whether it failed or not: the
constraint is what it would be without a memory, its constants resolve to what they resolve to
afresh, and its residuals are those over these. Constants that nothing defines play no part in
either. -/
theorem resolve_never_stale (c : Constraint K) (uses : List (Use K)) :
    let m := after c uses
    m.constraint = uses.foldl (fun c use => use.change c) c ∧
    (resolve.run m).1 = Constant.resolve c.kind.definitions m.constraint.constants ∧
    (outcome residuals m).1 = c.kind.residuals c.params
      (Constant.resolve c.kind.definitions m.constraint.constants) ∧
    (∀ t : Table (Raw K),
      (∀ d ∈ c.kind.definitions, t.get? d.name = m.constraint.constants.get? d.name) →
        Constant.resolve c.kind.definitions t = (resolve.run m).1) ∧
    ∀ name value, (∀ d ∈ c.kind.definitions, d.name ≠ name) →
      let edited := ((setConstant name value).run m).2
      (resolve.run edited).1 = (resolve.run m).1 ∧
        (outcome residuals edited).1 = (outcome residuals m).1 := by
  intro m
  obtain ⟨fresh, same⟩ : m.Fresh ∧ m.constraint = uses.foldl (fun c use => use.change c) c :=
    fresh_foldl uses (fresh_new c)
  obtain ⟨t, only⟩ : ∃ t, m.constraint = { c with constants := t } := by
    rw [same]
    exact exists_foldl_change uses c
  have resolved : (resolve.run m).1 =
      Constant.resolve c.kind.definitions m.constraint.constants := by
    rw [fresh.resolve, Constraint.resolved, only]
  have answered : (outcome residuals m).1 = c.kind.residuals c.params (resolve.run m).1 := by
    rw [outcome_residuals, only]
  refine ⟨same, resolved, resolved ▸ answered, fun t agree => ?_, fun name value undefined => ?_⟩
  · rw [resolved]
    exact Constant.resolve_congr agree
  · refine fresh.unseen value ?_
    rw [only]
    exact undefined

/-- A point that is locked at constants of which one is missing and one has no definition. -/
def locked : Constraint Float where
  id := ⟨0⟩
  kind := .lockPoint
  objects := [⟨0⟩]
  constants := .ofList [("note", .text "draft"), ("x", .text "1.5")]
  params := [⟨0, 1⟩, ⟨1, 1⟩]
  auxiliary := []
  reference := []
  managed := []
  isInternal := false
  options := .standard

/-- Its constants were asked for before one was given, and could not be measured in between. -/
def relocked : List (Use Float) :=
  [.resolve, .setConstant "y" (.text " 4 "), .residuals, .initConstants .empty, .resync .empty]

theorem resolve_never_stale_locked :
    let m := after locked relocked
    let edited := ((setConstant "note" (.flag true)).run m).2
    ((resolve.run m).1.number "y").toBits = (4 : Float).toBits ∧
    (∀ t : Table (Raw Float),
      t.get? "x" = some (.text "1.5") → t.get? "y" = some (.text " 4 ") →
        Constant.resolve Kind.lockPoint.definitions t = (resolve.run m).1) ∧
    (outcome residuals edited).1 = (outcome residuals m).1 := by
  obtain ⟨-, -, -, seen, unseen⟩ := resolve_never_stale locked relocked
  have given : (after locked relocked).constraint.constants.get? "x" = some (.text "1.5") ∧
      (after locked relocked).constraint.constants.get? "y" = some (.text " 4 ") := ⟨rfl, rfl⟩
  refine ⟨by decide +kernel, fun t x y => seen t ?_, (unseen "note" _ (by decide)).2⟩
  exact List.forall_mem_cons.mpr
    ⟨x.trans given.1.symm, List.forall_mem_singleton.mpr (y.trans given.2.symm)⟩

end Memo

end Drafting
