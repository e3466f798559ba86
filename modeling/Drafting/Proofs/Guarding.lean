import Drafting.Proofs.Failing
import Drafting.Proofs.Importing
import Drafting.Proofs.Tolerating

namespace Drafting

variable {K α β : Type}

namespace Workbench

variable {b b' b'' : Workbench K}

def Guards (b b' : Workbench K) : Prop := b.autoCheck = true → b'.autoCheck = true

theorem Guards.refl (b : Workbench K) : Guards b b := id

theorem Guards.trans (h : Guards b b') (h' : Guards b' b'') : Guards b b'' := h' ∘ h

/-- The check stays on through both parts, whichever of them fails. -/
theorem Guards.bind {m : Action K α} {f : α → Action K β} (hm : Leads Guards m)
    (hf : ∀ a, Leads Guards (f a)) : Leads Guards (m >>= f) :=
  Leads.bind (R := Guards) Guards.trans hm hf

theorem guards_ask (f : Workbench K → Except WorkbenchError α) : Leads Guards (ask f) :=
  leads_ask Guards.refl f

theorem guards_onSketch (m : StateM (Sketch K) α) : Leads Guards (onSketch m) := fun _ => id

theorem guards_editSketch {ε : Type} (f : ε → WorkbenchError) (m : Sketch.Edit K ε α) :
    Leads Guards (editSketch f m) := by
  intro b
  rw [outcome_editSketch]
  exact id

theorem guards_draw (name : String) (kind : ShapeKind) (m : StateM (Sketch K) ObjectId) :
    Leads Guards (draw name kind m) :=
  Guards.bind (guards_ask _) fun _ => Guards.bind (guards_onSketch m) fun _ _ => id

theorem guards_nameObject (name : String) (id : ObjectId) :
    Leads (Guards (K := K)) (nameObject name id) :=
  Guards.bind (guards_ask _) fun _ => Guards.bind (guards_ask _) fun _ _ => fun on => on

theorem guards_named (objects : List String) :
    Leads Guards (objects.mapM fun n => ask (K := K) (·.objectId n)) :=
  Leads.mapM (R := Guards) Guards.refl Guards.trans fun _ _ => guards_ask _

theorem guards_movePoint (name : String) (v : Vec K) : Leads Guards (movePoint name v) :=
  Guards.bind (guards_ask _) fun _ => Guards.bind (guards_ask _) fun _ _ => id

theorem guards_setConstant (name constant : String) (value : Constant.Raw K) :
    Leads Guards (setConstant name constant value) :=
  Guards.bind (guards_ask _).discard fun _ _ => id

theorem guards_remove (name : String) : Leads (Guards (K := K)) (remove name) :=
  Guards.bind (guards_ask _) fun _ _ => id

variable [Scalar K]

theorem guards_segmentBetween (name x y : String) :
    Leads (Guards (K := K)) (segmentBetween name x y) :=
  Guards.bind (guards_ask _) fun _ => Guards.bind (guards_ask _) fun _ =>
    Guards.bind (guards_ask _) fun _ => Guards.bind (guards_ask _) fun _ =>
      Guards.bind (guards_onSketch _) fun _ _ => id

theorem guards_rect (name : String) (x y w h : K) : Leads Guards (rect name x y w h) := by
  refine Guards.bind ?_ fun _ => ?_
  · refine Leads.forM (R := Guards) Guards.refl Guards.trans fun corner _ => ?_
    exact (guards_draw _ _ _).discard
  · refine Leads.mapM (R := Guards) Guards.refl Guards.trans fun i _ => ?_
    exact guards_segmentBetween _ _ _

theorem guards_applyModifiers : Leads (Guards (K := K)) applyModifiers := by
  intro b
  unfold applyModifiers
  rw [outcome_bind_ok (outcome_get b)]
  refine Guards.bind ?_ (fun _ _ => id) b
  exact Leads.forM (R := Guards) Guards.refl Guards.trans fun c _ => guards_editSketch _ _

variable [Written K]

theorem guards_push (name : String) (c : Constraint K) : Leads Guards (push name c) := by
  intro b on
  rw [outcome_push]
  split <;> exact on

theorem guards_constrain (name : String) (kind : Kind) (objects : List String) :
    Leads (Guards (K := K)) (constrain name kind objects) :=
  Guards.bind (guards_ask _) fun _ => Guards.bind (guards_named objects) fun _ =>
    Guards.bind (guards_editSketch _ _) fun c => guards_push name c

theorem guards_constrainWith (name : String) (kind : Kind) (objects : List String)
    (constants : Table (Constant.Raw K)) :
    Leads Guards (constrainWith name kind objects constants) :=
  Guards.bind (guards_ask _) fun _ => Guards.bind (guards_named objects) fun _ =>
    Guards.bind (guards_editSketch _ _) fun c => guards_push name c

theorem guards_consistency (name object : String) :
    Leads (Guards (K := K)) (consistency name object) := by
  refine Guards.bind (guards_ask _) fun _ => Guards.bind (guards_ask _) fun id =>
    Guards.bind (guards_editSketch _ _) fun made => ?_
  cases made with
  | some c => exact guards_push name c
  | none => exact fun _ on => on

theorem guards_resync (name : String) : Leads (Guards (K := K)) (resync name) :=
  Guards.bind (guards_ask _) fun _ => Guards.bind (guards_ask _) fun _ _ => id

/-- Loading neither asks for the check nor turns it off. -/
theorem guards_load (text : String) : Leads (Guards (K := K)) (load text) := by
  intro b
  unfold load
  split
  · exact id
  · rw [outcome_bind_ok (outcome_get b)]
    refine Guards.bind (guards_onSketch _) (fun _ => ?_) b
    refine Guards.bind (guards_onSketch _) fun read => ?_
    cases read with
    | ok loaded => exact fun _ on => on
    | error e => exact Guards.bind (guards_editSketch _ _) fun _ _ => id

theorem guards_checkAll (tol : K) (b : Workbench K) : Guards b ((checkAll tol).run b).2 := by
  rw [run_checkAll]
  exact id

theorem guards_report (tol : K) (b : Workbench K) : Guards b ((report tol).run b).2 := by
  rw [run_report]
  exact guards_checkAll tol b

/-- No operation turns the check off, the one that asks for it included. -/
theorem guards_run (b : Workbench K) (op : Operation K) : Guards b (op.run b) := by
  cases op with
  | autoCheck => exact fun _ => rfl
  | setValue h x => exact id
  | point name v => exact guards_draw name .point _ b
  | segment name start finish => exact guards_draw name .segment _ b
  | segmentBetween name x y => exact guards_segmentBetween name x y b
  | circle name center r => exact guards_draw name .circle _ b
  | arc name center r ang1 ang2 => exact guards_draw name .arc _ b
  | ellipse name ep1 ep2 r => exact guards_draw name .ellipse _ b
  | bezier name p0 p1 p2 p3 => exact guards_draw name .bezier _ b
  | rect name x y w h => exact guards_rect name x y w h b
  | nameObject name id => exact guards_nameObject name id b
  | movePoint name v => exact guards_movePoint name v b
  | constrain name kind objects => exact guards_constrain name kind objects b
  | constrainWith name kind objects constants =>
    exact guards_constrainWith name kind objects constants b
  | consistency name object => exact guards_consistency name object b
  | setConstant name constant value => exact guards_setConstant name constant value b
  | resync name => exact guards_resync name b
  | remove name => exact guards_remove name b
  | applyModifiers => exact guards_applyModifiers b
  | load text => exact guards_load text b
  | check name tol => exact Guards.bind (guards_ask _) (fun c => guards_onSketch _) b
  | checkAll tol => exact guards_checkAll tol b
  | report tol => exact guards_report tol b

/-- Once the check was asked for, it is on whatever is done. -/
theorem autoCheck_foldl (on : b.autoCheck = true) (ops : List (Operation K)) :
    (ops.foldl Operation.run b).autoCheck = true := by
  induction ops generalizing b with
  | nil => exact on
  | cons op ops ih => exact ih (guards_run b op on)

theorem autoCheck_after (ops : List (Operation K)) :
    (after (.autoCheck :: ops)).autoCheck = true := autoCheck_foldl rfl ops

end Workbench

variable [Scalar K] [Written K]

/-- The residuals have values, none of which is missing or infinite. -/
def Constraint.Finite (c : Constraint K) (s : Sketch K) : Prop :=
  ∃ xs, c.residualValues s = .ok xs ∧ ∀ x ∈ xs, Scalar.isFinite x = true

/-- The check passes just if all residuals can be collected and none is missing or infinite. -/
theorem passed_finiteResiduals_iff {c : Constraint K} {s : Sketch K} :
    (Audit.finiteResiduals c s).passed = true ↔ c.Finite s := by
  unfold Audit.finiteResiduals Constraint.Finite Constraint.valuesIn
  cases values : c.residualValues s with
  | error e => simp [Except.mapError]
  | ok xs =>
    have places : (Audit.nonFinite xs).isEmpty = true ↔ ∀ x ∈ xs, Scalar.isFinite x = true := by
      rw [List.isEmpty_iff, Audit.nonFinite, List.map_eq_nil_iff, List.filter_eq_nil_iff]
      refine (forall_mem_zipIdx (p := fun x => ¬(!Scalar.isFinite x) = true)).trans ?_
      simp
    dsimp only [Except.mapError]
    split
    · rename_i finite
      exact iff_of_true rfl ⟨xs, rfl, places.mp finite⟩
    · rename_i bad
      refine iff_of_false Bool.false_ne_true ?_
      rintro ⟨ys, same, finite⟩
      cases same
      exact bad (places.mpr finite)

/-- A modifier has no residuals, so that none of them is missing. -/
theorem Constraint.finite_of_isModifier {c : Constraint K} (modifier : c.kind.isModifier = true)
    (s : Sketch K) : c.Finite s :=
  ⟨[], residualValues_of_isModifier modifier s, List.forall_mem_nil _⟩

namespace Workbench

variable {b b' : Workbench K}

/-- One constraint was added, last in the list, and its residuals are finite. -/
def Admits (b b' : Workbench K) : Prop :=
  ∃ n, b'.constraints = b.constraints ++ [n] ∧ n.constraint.Finite b'.sketch

def Admitted (b : Workbench K) : Except WorkbenchError α × Workbench K → Prop :=
  Ends (fun _ t => Admits b t) fun _ _ => True

theorem Admitted.bind {m : Action K α} {f : α → Action K β} (looks : Looks m)
    (rest : ∀ a, Admitted b (outcome (f a) b)) : Admitted b (outcome (m >>= f) b) := by
  refine (looks b).bind (fun a t same => ?_) fun _ _ _ => trivial
  subst same
  exact rest a

/-- Where the check is on, a constraint stays in the list only if it passes. -/
theorem admitted_push {name : String} {c : Constraint K} {s : Sketch K} (on : b.autoCheck = true) :
    Admitted b (outcome (push name c) { b with sketch := s }) := by
  rw [outcome_push]
  split
  · trivial
  · rename_i accepted
    have passed : (Audit.finiteResiduals c s).passed = true := by simpa [on] using accepted
    exact ⟨⟨name, c⟩, rfl, passed_finiteResiduals_iff.mp passed⟩

/-- Nothing is in the list before the check, whichever way the constraint is made. -/
theorem admitted_made {m : Sketch.Edit K ConstraintError (Constraint K)} (name : String)
    (on : b.autoCheck = true) :
    Admitted b (outcome (editSketch .constraint m >>= push name) b) := by
  exact edit_bind_of (fun c s _ => admitted_push on) fun e s _ => trivial

theorem admitted_constrain (name : String) (kind : Kind) (objects : List String)
    (on : b.autoCheck = true) : Admitted b (outcome (constrain name kind objects) b) :=
  .bind (looks_checkFree name) fun _ => .bind (.mapM looks_objectId objects) fun _ =>
    admitted_made name on

theorem admitted_constrainWith (name : String) (kind : Kind) (objects : List String)
    (constants : Table (Constant.Raw K)) (on : b.autoCheck = true) :
    Admitted b (outcome (constrainWith name kind objects constants) b) :=
  .bind (looks_checkFree name) fun _ => .bind (.mapM looks_objectId objects) fun _ =>
    admitted_made name on

theorem admitted_consistency (name object : String) (on : b.autoCheck = true) :
    Admitted b (outcome (consistency name object) b) := by
  refine .bind (looks_checkFree name) fun _ => .bind (looks_objectId object) fun id => ?_
  refine edit_bind_of (fun made s _ => ?_) fun e s _ => trivial
  cases made with
  | some c => exact admitted_push on
  | none => trivial

/-- What is loaded has finite residuals just if the record has them alone. -/
theorem finite_iff_of_readsAlone {s t : Sketch K} {r : SavedConstraint K} {n : NamedConstraint K}
    (h : ReadsAlone s t r n) : n.constraint.Finite t ↔
      ∀ d u, outcome (Constraint.read r.record) s = (.ok d, u) → d.Finite u := by
  obtain ⟨-, kind, alone⟩ := h
  cases modifier : n.constraint.kind.isModifier with
  | true =>
    refine iff_of_true (Constraint.finite_of_isModifier modifier t) fun d u read => ?_
    obtain ⟨-, k, kind', made⟩ := Constraint.read_eq_ok.mp read
    obtain rfl := Option.some.inj (kind.symm.trans kind')
    exact Constraint.finite_of_isModifier ((Constraint.fields_make made).1 ▸ modifier) u
  | false =>
    obtain ⟨d, u, xs, read, values, values'⟩ := alone modifier
    constructor
    · rintro ⟨ys, same, finite⟩ d' u' read'
      cases read.symm.trans read'
      cases values'.symm.trans same
      exact ⟨xs, values, finite⟩
    · intro finite
      obtain ⟨ys, same, all⟩ := finite d u read
      cases values.symm.trans same
      exact ⟨xs, values', all⟩

theorem forall_mem_iff_of_forall₂ {γ δ : Type} {R : γ → δ → Prop} {P : γ → Prop} {Q : δ → Prop}
    {as : List γ} {bs : List δ} (related : List.Forall₂ R as bs) (h : ∀ a b, R a b → (Q b ↔ P a)) :
    (∀ b ∈ bs, Q b) ↔ ∀ a ∈ as, P a := by
  induction related with
  | nil => simp
  | cons one _ ih => rw [List.forall_mem_cons, List.forall_mem_cons, h _ _ one, ih]

/-- Where the check was asked for at the start, each operation that adds one constraint and succeeds
leaves it with finite residuals. Loading does so just if each record of the text, read alone in the
sketch as it was, makes a constraint with finite residuals. -/
theorem auto_check_guards (ops : List (Operation K)) :
    let b := after (.autoCheck :: ops)
    b.autoCheck = true ∧
    (∀ name kind objects i b', outcome (constrain name kind objects) b = (.ok i, b') →
      Admits b b') ∧
    (∀ name kind objects constants i b',
      outcome (constrainWith name kind objects constants) b = (.ok i, b') → Admits b b') ∧
    (∀ name object i b', outcome (consistency name object) b = (.ok i, b') → Admits b b') ∧
    ∀ text b', outcome (load text) b = (.ok (), b') →
      ∃ saved, readSaved? text = some saved ∧
        ((∀ n ∈ b'.constraints, n.constraint.Finite b'.sketch) ↔
          ∀ r ∈ saved, ∀ d t, outcome (Constraint.read r.record) b.sketch = (.ok d, t) →
            d.Finite t) := by
  intro b
  have on : b.autoCheck = true := autoCheck_after ops
  have admits {γ : Type} {m : Action K γ} {i : γ} {b' : Workbench K} (h : Admitted b (outcome m b))
      (run : outcome m b = (.ok i, b')) : Admits b b' := by
    rwa [run] at h
  refine ⟨on, fun name kind objects i b' => admits (admitted_constrain name kind objects on),
    fun name kind objects constants i b' =>
      admits (admitted_constrainWith name kind objects constants on),
    fun name object i b' => admits (admitted_consistency name object on), fun text b' run => ?_⟩
  obtain ⟨saved, parsed, alone⟩ := (sound_after (.autoCheck :: ops)).load_eq_ok run
  exact ⟨saved, parsed, forall_mem_iff_of_forall₂ alone fun _ _ => finite_iff_of_readsAlone⟩

def twoPoints : List (Operation Float) := [.point "p" ⟨0, 0⟩, .point "q" ⟨3, 4⟩]

def unmeasured : String :=
  "[\x7b\"name\":\"d\",\"typeId\":\"DistancePP\",\"objects\":[1,2],"
    ++ "\"constants\":\x7b\"distance\":\"five\"\x7d\x7d]"

/-- It is accepted, and its one residual is missing. -/
theorem load_unmeasured : ∃ b', outcome (load unmeasured) (after (.autoCheck :: twoPoints)) =
    (.ok (), b') ∧ ∃ n ∈ b'.constraints, ¬n.constraint.Finite b'.sketch := by
  have passed : let r := outcome (load unmeasured) (after (.autoCheck :: twoPoints))
      r.1 = .ok () ∧ r.2.constraints.map (fun n =>
        (Audit.finiteResiduals n.constraint r.2.sketch).passed) = [false] := by decide +kernel
  obtain ⟨b', run⟩ := exists_left passed.1
  rw [run] at passed
  have failed : false ∈ b'.constraints.map fun n =>
      (Audit.finiteResiduals n.constraint b'.sketch).passed := by simp [passed.2]
  obtain ⟨n, hn, bad⟩ := List.mem_map.mp failed
  refine ⟨b', run, n, hn, fun finite => ?_⟩
  exact Bool.false_ne_true (bad ▸ passed_finiteResiduals_iff.mpr finite)

theorem auto_check_guards_twoPoints :
    let b := after (.autoCheck :: twoPoints)
    (∃ i b', outcome (constrainWith "d" .distancePP ["p", "q"]
      (.ofList [("distance", .number 5)])) b = (.ok i, b') ∧ Admits b b') ∧
    ∃ b' saved, outcome (load unmeasured) b = (.ok (), b') ∧ readSaved? unmeasured = some saved ∧
      ¬∀ r ∈ saved, ∀ d t, outcome (Constraint.read r.record) b.sketch = (.ok d, t) →
        d.Finite t := by
  intro b
  obtain ⟨-, -, added, -, loaded⟩ := auto_check_guards twoPoints
  constructor
  · have accepted : (outcome (constrainWith "d" .distancePP ["p", "q"]
        (.ofList [("distance", .number 5)])) b).1 = .ok ⟨0⟩ := by decide +kernel
    obtain ⟨b', run⟩ := exists_left accepted
    exact ⟨⟨0⟩, b', run, added _ _ _ _ _ _ run⟩
  · obtain ⟨b', run, n, hn, missing⟩ := load_unmeasured
    obtain ⟨saved, parsed, finite⟩ := loaded _ b' run
    exact ⟨b', saved, run, parsed, fun alone => missing (finite.mpr alone n hn)⟩

/-- Not every constraint that is added has finite residuals: what is loaded is not checked. -/
theorem auto_check_misses_loaded :
    ¬∀ (ops : List (Operation Float)) (text : String) (b' : Workbench Float),
      outcome (load text) (after (.autoCheck :: ops)) = (.ok (), b') →
        ∀ n ∈ b'.constraints, n.constraint.Finite b'.sketch := by
  intro finite
  obtain ⟨b', run, n, hn, missing⟩ := load_unmeasured
  exact missing (finite twoPoints unmeasured b' run n hn)

end Workbench

end Drafting
