namespace Drafting

variable {ε ε' σ α β : Type}

/-- Two steps answer just if the first does and the second does with that answer. -/
theorem bind_eq_ok {x : Except ε α} {f : α → Except ε β} {b : β} :
    (x >>= f) = .ok b ↔ ∃ a, x = .ok a ∧ f a = .ok b := by
  cases x <;> simp [bind, Except.bind]

theorem mapError_eq_ok {x : Except ε α} {f : ε → ε'} {a : α} :
    x.mapError f = .ok a ↔ x = .ok a := by
  constructor
  · intro h
    cases x with
    | ok b => exact congrArg Except.ok (Except.ok.inj h)
    | error e => cases h
  · intro h
    cases h
    rfl

theorem forM_eq_ok {f : α → Except ε Unit} {as : List α} :
    as.forM f = .ok () ↔ ∀ a ∈ as, f a = .ok () := by
  induction as with
  | nil => simp [pure, Except.pure]
  | cons a as ih =>
    rw [List.forM_eq_forM] at ih ⊢
    rw [List.forM_cons, bind_eq_ok, ih, List.forall_mem_cons]
    exact ⟨fun ⟨_, ha, has⟩ => ⟨ha, has⟩, fun ⟨ha, has⟩ => ⟨(), ha, has⟩⟩

/-- What is done to each of a list fails at the first that it fails for. -/
theorem forM_eq_error {f : α → Except ε Unit} {as : List α} {e : ε} :
    as.forM f = .error e ↔
      ∃ before a after, as = before ++ a :: after ∧ (∀ b ∈ before, f b = .ok ()) ∧
        f a = .error e := by
  induction as with
  | nil => simp [pure, Except.pure]
  | cons a as ih =>
    have step : (a :: as).forM f = f a >>= fun _ => as.forM f := rfl
    rw [step]
    cases ha : f a with
    | error e' =>
      constructor
      · intro failed
        cases failed
        exact ⟨[], a, as, rfl, List.forall_mem_nil _, ha⟩
      · rintro ⟨before, b, after, split, all, hb⟩
        cases before with
        | nil =>
          obtain ⟨rfl, rfl⟩ := List.cons.inj split
          exact ha.symm.trans hb
        | cons c before =>
          obtain ⟨rfl, -⟩ := List.cons.inj split
          cases ha.symm.trans (all _ (by simp))
    | ok u =>
      refine ih.trans ⟨?_, ?_⟩
      · rintro ⟨before, b, after, rfl, all, hb⟩
        exact ⟨a :: before, b, after, rfl, List.forall_mem_cons.mpr ⟨ha, all⟩, hb⟩
      · rintro ⟨before, b, after, split, all, hb⟩
        cases before with
        | nil =>
          obtain ⟨rfl, -⟩ := List.cons.inj split
          cases ha.symm.trans hb
        | cons c before =>
          obtain ⟨rfl, rfl⟩ := List.cons.inj split
          exact ⟨before, b, after, rfl, (List.forall_mem_cons.mp all).2, hb⟩

theorem mapM_cons_eq_ok {f : α → Except ε β} {a : α} {as : List α} {bs : List β} :
    (a :: as).mapM f = .ok bs ↔ ∃ b cs, f a = .ok b ∧ as.mapM f = .ok cs ∧ bs = b :: cs := by
  rw [List.mapM_cons, bind_eq_ok]
  constructor
  · intro ⟨b, hb, h⟩
    obtain ⟨cs, hcs, hbs⟩ := bind_eq_ok.mp h
    cases hbs
    exact ⟨b, cs, hb, hcs, rfl⟩
  · intro ⟨b, cs, hb, hcs, hbs⟩
    exact ⟨b, hb, bind_eq_ok.mpr ⟨cs, hcs, congrArg Except.ok hbs.symm⟩⟩

theorem mapM_imp {f g : α → Except ε β} (h : ∀ a b, f a = .ok b → g a = .ok b) {as : List α}
    {bs : List β} (answers : as.mapM f = .ok bs) : as.mapM g = .ok bs := by
  induction as generalizing bs with
  | nil => exact answers
  | cons a as ih =>
    obtain ⟨b, cs, hb, hcs, rfl⟩ := mapM_cons_eq_ok.mp answers
    exact mapM_cons_eq_ok.mpr ⟨b, cs, h a b hb, ih hcs, rfl⟩

/-- The answers of a list together, where none is an error. -/
theorem flatMap_of_mapM {f : α → Except ε (List β)} {as : List α} {bss : List (List β)}
    (answers : as.mapM f = .ok bss) :
    as.flatMap (fun a => (f a).toOption.getD []) = bss.flatten := by
  induction as generalizing bss with
  | nil =>
    cases answers
    rfl
  | cons a as ih =>
    obtain ⟨bs, css, ha, has, rfl⟩ := mapM_cons_eq_ok.mp answers
    rw [List.flatMap_cons, List.flatten_cons, ih has, ha]
    rfl

/-- The answer of an operation and the state it leaves, whether it failed or not. -/
def outcome (m : ExceptT ε (StateM σ) α) (s : σ) : Except ε α × σ := m.run.run s

/-- Where the answer is known, some state is left. -/
theorem exists_left {answer : Except ε α} {r : Except ε α × σ} (h : r.1 = answer) :
    ∃ t, r = (answer, t) := ⟨r.2, Prod.ext h rfl⟩

theorem exists_of_toOption {r : Except ε α × σ} {a : α} (h : r.1.toOption = some a) :
    ∃ t, r = (.ok a, t) := by
  obtain ⟨answer, t⟩ := r
  cases answer with
  | ok b => exact ⟨t, by rw [Option.some.inj h]⟩
  | error e => cases h

@[simp] theorem outcome_pure (a : α) (s : σ) :
    outcome (pure a : ExceptT ε (StateM σ) α) s = (.ok a, s) := rfl

@[simp] theorem outcome_get (s : σ) :
    outcome (get : ExceptT ε (StateM σ) σ) s = (.ok s, s) := rfl

@[simp] theorem outcome_modify (f : σ → σ) (s : σ) :
    outcome (modify f : ExceptT ε (StateM σ) Unit) s = (.ok (), f s) := rfl

@[simp] theorem outcome_liftM (m : StateM σ α) (s : σ) :
    outcome (liftM m : ExceptT ε (StateM σ) α) s = (.ok (m.run s).1, (m.run s).2) := rfl

/-- Where the first step fails, what it left stays. -/
theorem outcome_bind (m : ExceptT ε (StateM σ) α) (f : α → ExceptT ε (StateM σ) β) (s : σ) :
    outcome (m >>= f) s =
      match outcome m s with
      | (.ok a, t) => outcome (f a) t
      | (.error e, t) => (.error e, t) := by
  have h : outcome (m >>= f) s = (ExceptT.bindCont f (outcome m s).1).run (outcome m s).2 := rfl
  rw [h]
  obtain ⟨answer, t⟩ := outcome m s
  cases answer <;> rfl

theorem outcome_bind_ok {m : ExceptT ε (StateM σ) α} {s t : σ} {a : α}
    (h : outcome m s = (.ok a, t)) (f : α → ExceptT ε (StateM σ) β) :
    outcome (m >>= f) s = outcome (f a) t := by
  rw [outcome_bind, h]

theorem outcome_bind_error {m : ExceptT ε (StateM σ) α} {s t : σ} {e : ε}
    (h : outcome m s = (.error e, t)) (f : α → ExceptT ε (StateM σ) β) :
    outcome (m >>= f) s = (.error e, t) := by
  rw [outcome_bind, h]

theorem outcome_bind_eq_ok {m : ExceptT ε (StateM σ) α} {f : α → ExceptT ε (StateM σ) β} {s u : σ}
    {b : β} : outcome (m >>= f) s = (.ok b, u) ↔
      ∃ a t, outcome m s = (.ok a, t) ∧ outcome (f a) t = (.ok b, u) := by
  constructor
  · intro h
    cases hm : outcome m s with
    | mk answer t =>
      cases answer with
      | ok a => exact ⟨a, t, rfl, (outcome_bind_ok hm f).symm.trans h⟩
      | error e =>
        rw [outcome_bind_error hm] at h
        cases h
  · intro ⟨a, t, hm, hf⟩
    exact (outcome_bind_ok hm f).trans hf

theorem outcome_discard_eq_ok {m : ExceptT ε (StateM σ) α} {s t : σ} :
    outcome (discard m) s = (.ok (), t) ↔ ∃ a, outcome m s = (.ok a, t) := by
  change outcome (m >>= fun _ => pure ()) s = _ ↔ _
  rw [outcome_bind_eq_ok]
  simp

/-- What holds after an operation and its continuation: shown for the continuation after success,
and at once after failure. -/
theorem outcome_bind_of {P : Except ε β × σ → Prop} {m : ExceptT ε (StateM σ) α} {s : σ}
    {f : α → ExceptT ε (StateM σ) β}
    (ok : ∀ a t, outcome m s = (.ok a, t) → P (outcome (f a) t))
    (error : ∀ e t, outcome m s = (.error e, t) → P (.error e, t)) :
    P (outcome (m >>= f) s) := by
  rw [outcome_bind]
  cases h : outcome m s with
  | mk answer t =>
    cases answer with
    | ok a => exact ok a t h
    | error e => exact error e t h

@[simp] theorem outcome_discard (m : ExceptT ε (StateM σ) α) (s : σ) :
    (outcome (discard m) s).2 = (outcome m s).2 := by
  change (outcome (m >>= fun _ => pure ()) s).2 = _
  refine outcome_bind_of (P := fun r => r.2 = _) (fun a t h => ?_) (fun e t h => ?_) <;>
    simp [h]

/-- An error that is reported as another one has no other effect. -/
@[simp] theorem outcome_adapt (g : ε → ε') (m : ExceptT ε (StateM σ) α) (s : σ) :
    outcome (ExceptT.adapt g m) s = ((outcome m s).1.mapError g, (outcome m s).2) := rfl

theorem outcome_adapt_eq_ok {g : ε → ε'} {m : ExceptT ε (StateM σ) α} {s t : σ} {a : α} :
    outcome (ExceptT.adapt g m) s = (.ok a, t) ↔ outcome m s = (.ok a, t) := by
  rw [outcome_adapt, Prod.ext_iff, Prod.ext_iff, mapError_eq_ok]

theorem run_bind_snd (m : StateM σ α) (f : α → StateM σ β) (s : σ) :
    ((m >>= f).run s).2 = ((f (m.run s).1).run (m.run s).2).2 := rfl

theorem run_get_snd (f : σ → StateM σ β) (s : σ) : ((get >>= f).run s).2 = ((f s).run s).2 := rfl

theorem run_pure_snd (a : α) (s : σ) : ((pure a : StateM σ α).run s).2 = s := rfl

/-- After success `ok` holds of the answer and the state, after failure `error` does. -/
def Ends (ok : α → σ → Prop) (error : ε → σ → Prop) : Except ε α × σ → Prop
  | (.ok a, t) => ok a t
  | (.error e, t) => error e t

section Ends

variable {ok : α → σ → Prop} {error : ε → σ → Prop} {ok' : β → σ → Prop} {error' : ε → σ → Prop}

/-- An error of the first step is one of the whole, and is looked at as such. -/
theorem Ends.bind {m : ExceptT ε (StateM σ) α} {f : α → ExceptT ε (StateM σ) β} {s : σ}
    (h : Ends ok error (outcome m s))
    (hok : ∀ a t, ok a t → Ends ok' error' (outcome (f a) t))
    (herror : ∀ e t, error e t → error' e t) :
    Ends ok' error' (outcome (m >>= f) s) := by
  refine outcome_bind_of (P := Ends ok' error') (fun a t ht => ?_) (fun e t ht => ?_)
  · rw [ht] at h
    exact hok a t h
  · rw [ht] at h
    exact herror e t h

theorem Ends.imp {r : Except ε α × σ} {ok' : α → σ → Prop} (h : Ends ok error r)
    (hok : ∀ a t, ok a t → ok' a t) (herror : ∀ e t, error e t → error' e t) :
    Ends ok' error' r := by
  obtain ⟨answer, t⟩ := r
  cases answer with
  | ok a => exact hok a t h
  | error e => exact herror e t h

end Ends

/-- Wherever an operation starts and however it ends, it takes the state along `R`. -/
def Leads (R : σ → σ → Prop) (m : ExceptT ε (StateM σ) α) : Prop := ∀ s, R s (outcome m s).2

section Leads

variable {R : σ → σ → Prop} {f : α → ExceptT ε (StateM σ) β}

/-- Any two steps in a row take the state along a transitive relation if each does. -/
theorem Leads.bind (trans : ∀ {s t u}, R s t → R t u → R s u) {m : ExceptT ε (StateM σ) α}
    (hm : Leads R m) (hf : ∀ a, Leads R (f a)) : Leads R (m >>= f) := by
  intro s
  have first := hm s
  refine outcome_bind_of (P := fun r => R s r.2) (fun a t h => ?_) (fun e t h => ?_)
  · rw [h] at first
    exact trans first (hf a t)
  · rw [h] at first
    exact first

/-- So does a row of steps, which may stop at any of them. -/
theorem Leads.forM (refl : ∀ s, R s s) (trans : ∀ {s t u}, R s t → R t u → R s u)
    {g : α → ExceptT ε (StateM σ) Unit} {as : List α} (h : ∀ a ∈ as, Leads R (g a)) :
    Leads R (as.forM g) := by
  induction as with
  | nil => exact refl
  | cons a as ih =>
    refine Leads.bind (R := R) trans (h a (by simp)) (fun _ => ih ?_)
    exact fun b hb => h b (List.mem_cons_of_mem _ hb)

theorem Leads.mapM (refl : ∀ s, R s s) (trans : ∀ {s t u}, R s t → R t u → R s u)
    {as : List α} (h : ∀ a ∈ as, Leads R (f a)) : Leads R (as.mapM f) := by
  induction as with
  | nil => exact refl
  | cons a as ih =>
    rw [List.mapM_cons]
    refine Leads.bind (R := R) trans (h a (by simp)) fun b =>
      Leads.bind (R := R) trans (ih ?_) fun bs => refl
    exact fun b hb => h b (List.mem_cons_of_mem _ hb)

/-- A row of steps that change nothing changes nothing. -/
theorem outcome_mapM_of_same {as : List α} {s : σ} (h : ∀ a t, (outcome (f a) t).2 = t) :
    (outcome (as.mapM f) s).2 = s :=
  (Leads.mapM (R := Eq) (fun _ => rfl) (fun h h' => h.trans h') (fun a _ t => (h a t).symm) s).symm

theorem Leads.discard {m : ExceptT ε (StateM σ) α} (h : Leads R m) : Leads R (discard m) := by
  intro s
  rw [outcome_discard]
  exact h s

end Leads

end Drafting
