import Drafting.Proofs.Change

namespace Drafting.Workbench

variable {K ε α β : Type} {b b' b'' : Workbench K}

theorem outcome_ask (f : Workbench K → Except WorkbenchError α) (b : Workbench K) :
    outcome (ask f) b = (f b, b) := by
  unfold ask
  rw [outcome_bind_ok (outcome_get b)]
  cases f b <;> rfl

/-- Asking changes nothing, so only what follows an answer counts. -/
theorem ask_bind_of {P : Except WorkbenchError β × Workbench K → Prop}
    {f : Workbench K → Except WorkbenchError α} {g : α → Action K β}
    (ok : ∀ a, f b = .ok a → P (outcome (g a) b)) (error : ∀ e, f b = .error e → P (.error e, b)) :
    P (outcome (ask f >>= g) b) := by
  rw [outcome_bind, outcome_ask]
  cases answer : f b with
  | ok a => exact ok a answer
  | error e => exact error e answer

theorem leads_ask {R : Workbench K → Workbench K → Prop} (refl : ∀ b, R b b)
    (f : Workbench K → Except WorkbenchError α) : Leads R (ask f) := by
  intro b
  rw [outcome_ask]
  exact refl b

theorem outcome_onSketch (m : StateM (Sketch K) α) (b : Workbench K) :
    outcome (onSketch m) b =
      (.ok (m.run b.sketch).1, { b with sketch := (m.run b.sketch).2 }) := rfl

theorem outcome_log (e : Event) (b : Workbench K) :
    outcome (log e) b = (.ok (), { b with history := b.history ++ [e] }) := rfl

/-- An edit that fails leaves in the sketch what it had written by then. -/
theorem outcome_editSketch (f : ε → WorkbenchError) (m : Sketch.Edit K ε α) (b : Workbench K) :
    outcome (editSketch f m) b =
      ((outcome m b.sketch).1.mapError f, { b with sketch := (outcome m b.sketch).2 }) := by
  unfold editSketch
  rw [outcome_bind_ok (outcome_onSketch m.run b)]
  have run : m.run.run b.sketch = outcome m b.sketch := rfl
  rw [run]
  cases (outcome m b.sketch).1 <;> rfl

theorem edit_bind_of {P : Except WorkbenchError β × Workbench K → Prop}
    {m : Sketch.Edit K ε α} {f : ε → WorkbenchError} {g : α → Action K β}
    (ok : ∀ a t, outcome m b.sketch = (.ok a, t) → P (outcome (g a) { b with sketch := t }))
    (error : ∀ e t, outcome m b.sketch = (.error e, t) →
      P (.error (f e), { b with sketch := t })) :
    P (outcome (editSketch f m >>= g) b) := by
  rw [outcome_bind, outcome_editSketch]
  cases run : outcome m b.sketch with
  | mk answer t =>
    cases answer with
    | ok a => exact ok a t run
    | error e => exact error e t run

def Evolves (b b' : Workbench K) : Prop := Sound b → Changes b b'

theorem Evolves.refl (b : Workbench K) : Evolves b b := fun _ => .refl

theorem Evolves.trans (h : Evolves b b') (h' : Evolves b' b'') : Evolves b b'' := by
  intro sound
  have first := h sound
  exact Relation.ReflTransGen.trans first (h' (first.sound sound))

theorem Change.evolves (h : Change b b') : Evolves b b' := fun _ => .single h

/-- Where sketch and constraints are the same, nothing changed. -/
theorem evolves_of_same (sketch : b'.sketch = b.sketch)
    (constraints : b'.constraints = b.constraints) :
    Evolves b b' := by
  refine Change.evolves (.keep ?_ ?_)
  · rw [sketch]
    exact .refl _
  · rw [stakes, constraints, stakes]

/-- However the first part ends, the whole goes through changes if each part does. -/
theorem Evolves.bind {m : Action K α} {f : α → Action K β} (hm : Leads Evolves m)
    (hf : ∀ a, Leads Evolves (f a)) : Leads Evolves (m >>= f) :=
  Leads.bind (R := Evolves) Evolves.trans hm hf

theorem evolves_ask (f : Workbench K → Except WorkbenchError α) : Leads Evolves (ask f) :=
  leads_ask Evolves.refl f

theorem evolves_ask_bind {f : Workbench K → Except WorkbenchError α} {g : α → Action K β}
    (h : ∀ a, f b = .ok a → Evolves b (outcome (g a) b).2) :
    Evolves b (outcome (ask f >>= g) b).2 :=
  ask_bind_of (P := fun r => Evolves b r.2) h fun _ _ => .refl b

theorem evolves_log (e : Event) : Leads (Evolves (K := K)) (log e) :=
  fun _ => evolves_of_same rfl rfl

theorem evolves_modify_log {f : Workbench K → Workbench K} {e : Event} (h : Change b (f b)) :
    Evolves b (outcome (modify f >>= fun _ => log e) b).2 := by
  rw [outcome_bind_ok (outcome_modify f b)]
  exact h.evolves.trans (evolves_log e (f b))

theorem evolves_register (name : String) (kind : ShapeKind) (id : ObjectId) :
    Leads (Evolves (K := K)) (register name kind id) :=
  fun _ => evolves_of_same rfl rfl

theorem evolves_onSketch {m : StateM (Sketch K) α}
    (h : ∀ s : Sketch K, s.Ordered → s.Unchanged (m.run s).2) : Leads Evolves (onSketch m) :=
  fun b sound => .single (.keep (h b.sketch sound.ordered) rfl)

/-- Where an edit fails it shows nothing; where it succeeds, what follows decides. -/
theorem changes_edit {m : Sketch.Edit K ε α} {g : ε → WorkbenchError} {f : α → Action K β}
    {ok : α → Sketch K → Prop}
    (h : Ends ok (fun _ t => b.sketch.Unchanged t) (outcome m b.sketch))
    (next : ∀ a t, ok a t → Changes b (outcome (f a) { b with sketch := t }).2) :
    Changes b (outcome (editSketch g m >>= f) b).2 := by
  refine edit_bind_of (P := fun r => Changes b r.2) (fun a t run => ?_) fun e t run => ?_
  · rw [run] at h
    exact next a t h
  · rw [run] at h
    exact .single (.keep h rfl)

/-- Objects that are drawn one after another are as many changes. -/
theorem changes_of_drawn {t : Sketch K} (d : Sketch.Drawn b.sketch t) :
    Changes b { b with sketch := t } := by
  induction d with
  | refl => exact .refl
  | tail _ step ih =>
    obtain ⟨e, step⟩ := step
    exact .tail ih (.draw e step rfl)

end Drafting.Workbench
