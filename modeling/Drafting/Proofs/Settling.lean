import Drafting.Double
import Drafting.Proofs.Repeating
import Drafting.Proofs.Session
import Drafting.Proofs.Visiting

namespace Drafting

variable {K : Type}

/-- No parameter of a target of the one modifier is listed for the line or a source of the other. -/
def Constraint.Spares (m m' : Constraint K) (s : Sketch K) : Prop :=
  ∀ o ∈ m.managed, ∀ q ∈ m'.reference, ∀ h ∈ s.visited o, h ∉ s.visited q

instance (m m' : Constraint K) (s : Sketch K) : Decidable (m.Spares m' s) :=
  inferInstanceAs (Decidable (∀ o ∈ m.managed, ∀ q ∈ m'.reference, ∀ h ∈ s.visited o,
    h ∉ s.visited q))

/-- Each modifier is spared by itself and by all behind it. Targets may overlap. -/
structure InOrder (ms : List (Constraint K)) (s : Sketch K) : Prop where
  itself : ∀ m ∈ ms, m.Spares m s
  later : ms.Pairwise fun m m' => m'.Spares m s

namespace Sketch

variable [Scalar K] {s s₀ t : Sketch K} {ms : List (Constraint K)}

omit [Scalar K] in
theorem apart_of_spares {m m' : Constraint K} (spares : m'.Spares m s) :
    ∀ h, m.Reads s h → ¬ m'.Sets s h := by
  intro h ⟨q, hq, read⟩ ⟨o, ho, written⟩
  exact spares o ho q hq h (mem_visited.mpr written) (mem_visited.mpr read)

/-- A pass does the same again from every sketch that differs only where the pass writes. -/
theorem rerun (order : InOrder ms s₀) (same : s.entities = s₀.entities)
    (run : outcome (ms.forM Constraint.modify) s = (.ok (), t)) :
    ∃ f : Handle → Option K, (∀ h, f h ≠ none → ∃ m ∈ ms, m.Sets s₀ h) ∧ s.Assigned f t ∧
      ∀ s' : Sketch K, s.Writes (fun h => f h ≠ none) s' →
        ∃ t', outcome (ms.forM Constraint.modify) s' = (.ok (), t') ∧ s'.Assigned f t' := by
  induction ms generalizing s with
  | nil =>
    cases run
    exact ⟨fun _ => none, by simp, .refl _, fun s' _ => ⟨s', rfl, .refl s'⟩⟩
  | cons m ms ih =>
    obtain ⟨_, u, first, rest⟩ := outcome_bind_eq_ok.mp run
    obtain ⟨spared, later⟩ := List.pairwise_cons.mp order.later
    have own := apart_of_spares (order.itself m (by simp))
    obtain ⟨f, hf, given, again⟩ := m.repeats_modify s₀ own s () u same first
    have tail : InOrder ms s₀ := ⟨fun n hn => order.itself n (List.mem_cons_of_mem m hn), later⟩
    obtain ⟨g, hg, given', again'⟩ := ih tail (given.entities.trans same) rest
    refine ⟨_, fun h written => ?_, given.trans given', fun s' differ => ?_⟩
    · by_cases hgh : g h = none
      · exact ⟨m, by simp, hf h (by simpa [hgh] using written)⟩
      · obtain ⟨n, hn, sets⟩ := hg h hgh
        exact ⟨n, List.mem_cons_of_mem m hn, sets⟩
    · -- what the first modifier reads is written neither by itself nor by the rest
      have read : ∀ h, m.Reads s₀ h → s'.value h = s.value h := by
        intro h reads
        have unwritten : (g h).or (f h) = none := by
          have none_f : f h = none := by_contra fun written => own h reads (hf h written)
          have none_g : g h = none := by
            by_contra written
            obtain ⟨n, hn, sets⟩ := hg h written
            exact apart_of_spares (spared n hn) h reads sets
          simp [none_f, none_g]
        have same := differ.others h (not_not.mpr unwritten)
        simp only [value, same]
      obtain ⟨u', first', assigned⟩ := again s' (differ.entities.trans same) read
      obtain ⟨t', rest', assigned'⟩ := again' u' (given.writes_rest assigned differ)
      exact ⟨t', outcome_bind_eq_ok.mpr ⟨(), u', first', rest'⟩, assigned.trans assigned'⟩

/-- The second of two passes changes nothing. -/
theorem settles (order : InOrder ms s)
    (run : outcome (ms.forM Constraint.modify) s = (.ok (), t)) :
    outcome (ms.forM Constraint.modify) t = (.ok (), t) := by
  obtain ⟨f, -, given, again⟩ := rerun order rfl run
  obtain ⟨t', run', assigned⟩ := again t given.writes
  rwa [given.again.unique assigned] at run'

end Sketch

namespace Workbench

def modifiers (b : Workbench K) : List (Constraint K) :=
  (b.constraints.filter (·.constraint.kind.isModifier)).map (·.constraint)

variable [Scalar K]

omit [Scalar K] in
/-- Edits in a row leave the rest of a workbench as it is. -/
theorem outcome_forM_edit {ε : Type} {g : ε → WorkbenchError} {cs : List (NamedConstraint K)}
    {m : Constraint K → Sketch.Edit K ε Unit} {b b' : Workbench K} :
    outcome (cs.forM fun c => editSketch g (m c.constraint)) b = (.ok (), b') ↔
      ∃ t, outcome ((cs.map (·.constraint)).forM m) b.sketch = (.ok (), t) ∧
        b' = { b with sketch := t } := by
  induction cs generalizing b with
  | nil =>
    constructor
    · intro run
      cases run
      exact ⟨_, rfl, rfl⟩
    · rintro ⟨t, run, rfl⟩
      cases run
      rfl
  | cons c cs ih =>
    constructor
    · intro run
      obtain ⟨_, b₁, first, rest⟩ := outcome_bind_eq_ok.mp run
      rw [outcome_editSketch, Prod.mk.injEq, mapError_eq_ok] at first
      obtain ⟨ok, rfl⟩ := first
      obtain ⟨t, pass, left⟩ := ih.mp rest
      exact ⟨t, outcome_bind_eq_ok.mpr ⟨(), _, Prod.ext ok rfl, pass⟩, left⟩
    · rintro ⟨t, run, rfl⟩
      obtain ⟨_, u, first, rest⟩ := outcome_bind_eq_ok.mp run
      refine outcome_bind_eq_ok.mpr ⟨(), { b with sketch := u }, ?_, ih.mpr ⟨t, rest, rfl⟩⟩
      rw [outcome_editSketch, first]
      rfl

theorem outcome_applyModifiers {b b' : Workbench K} :
    outcome applyModifiers b = (.ok (), b') ↔
      ∃ t, outcome (b.modifiers.forM Constraint.modify) b.sketch = (.ok (), t) ∧
        b' = { b with
          sketch := t
          history := b.history ++ [.modifiersApplied b.modifiers.length] } := by
  unfold applyModifiers
  rw [outcome_bind_ok (outcome_get b), outcome_bind_eq_ok]
  simp only [outcome_forM_edit (m := Constraint.modify), outcome_log, modifiers, List.length_map]
  constructor
  · rintro ⟨_, _, ⟨t, pass, rfl⟩, logged⟩
    cases logged
    exact ⟨t, pass, rfl⟩
  · rintro ⟨t, pass, rfl⟩
    exact ⟨(), _, ⟨t, pass, rfl⟩, rfl⟩

/-- Where the modifiers are in order and a pass succeeds, another one succeeds and leaves only a
line in the history. -/
theorem applyModifiers_settles {b b' : Workbench K} (order : InOrder b.modifiers b.sketch)
    (run : outcome applyModifiers b = (.ok (), b')) :
    outcome applyModifiers b' = (.ok (), { b' with
      history := b'.history ++ [.modifiersApplied b.modifiers.length] }) := by
  obtain ⟨t, pass, rfl⟩ := outcome_applyModifiers.mp run
  exact outcome_applyModifiers.mpr ⟨t, Sketch.settles order pass, rfl⟩

/-- The target of the first mirror is the line of the second. -/
def chained : List (Operation Float) :=
  [.segment "l" ⟨0, 0⟩ ⟨0, 1⟩, .segment "s" ⟨1, 0⟩ ⟨2, 1⟩, .segment "t" ⟨9, 0⟩ ⟨10, 0⟩,
    .point "a" ⟨5, 5⟩, .point "b" ⟨6, 6⟩,
    .constrain "first" .mirror ["l", "s", "t"], .constrain "second" .mirror ["t", "a", "b"]]

theorem applyModifiers_settles_chained :
    ∃ b', outcome applyModifiers (after chained) = (.ok (), b') ∧
      (after chained).modifiers.length = 2 ∧
      outcome applyModifiers b' = (.ok (), { b' with
        history := b'.history ++ [.modifiersApplied 2] }) := by
  have order : InOrder (after chained).modifiers (after chained).sketch :=
    ⟨by decide +kernel, by decide +kernel⟩
  have two : (after chained).modifiers.length = 2 := by decide +kernel
  have succeeds : (outcome applyModifiers (after chained)).1.toOption = some () := by
    decide +kernel
  obtain ⟨b', run⟩ : ∃ b', outcome applyModifiers (after chained) = (.ok (), b') := by
    refine exists_left ?_
    cases h : (outcome applyModifiers (after chained)).1 with
    | ok _ => rfl
    | error e => simp [h, Except.toOption] at succeeds
  refine ⟨b', run, two, ?_⟩
  have settled := applyModifiers_settles order run
  rwa [two] at settled

end Workbench

end Drafting
