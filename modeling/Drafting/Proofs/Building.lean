import Drafting.Proofs.Action

namespace Drafting.Workbench

open Constraint (Leaves LeavesAny)
open Sketch (Drawn)

variable {K α : Type} {b : Workbench K} {t : Sketch K}

/-- Names do not touch the sketch, so that only the drawing needs to be looked at. -/
theorem evolves_draw {m : StateM (Sketch K) ObjectId} (name : String) (kind : ShapeKind)
    (hm : ∀ s : Sketch K, s.Ordered → Drawn s (m.run s).2) :
    Leads Evolves (draw name kind m) := by
  refine Evolves.bind (evolves_ask _) fun _ => ?_
  refine Evolves.bind (fun b sound => ?_) fun id => evolves_register name kind id
  rw [outcome_onSketch]
  exact changes_of_drawn (hm b.sketch sound.ordered)

theorem evolves_point (name : String) (v : Vec K) : Leads Evolves (point name v) :=
  evolves_draw name .point fun _ o => (Sketch.drawn_addPoint v o).1

theorem evolves_nameObject (name : String) (id : ObjectId) :
    Leads (Evolves (K := K)) (nameObject name id) := by
  refine Evolves.bind (evolves_ask _) fun _ => ?_
  refine Evolves.bind (evolves_ask _) fun kind => ?_
  exact (evolves_register name kind id).discard

variable [Scalar K]

theorem evolves_segmentBetween (name x y : String) :
    Leads (Evolves (K := K)) (segmentBetween name x y) := by
  refine Evolves.bind (evolves_ask _) fun _ => ?_
  refine Evolves.bind (evolves_ask _) fun p => ?_
  refine Evolves.bind (evolves_ask _) fun q => ?_
  intro b
  refine evolves_ask_bind fun d hd => ?_
  obtain ⟨⟨_, hp⟩, _, hq⟩ := Sketch.points_of_step (mapError_eq_ok.mp hd)
  rw [outcome_bind_ok (outcome_onSketch _ b)]
  refine Evolves.trans (fun _ => ?_) (evolves_register name .segment _ _)
  exact changes_of_drawn (Sketch.drawn_addSegmentOver hp hq d)

theorem evolves_rect (name : String) (x y w h : K) : Leads Evolves (rect name x y w h) := by
  refine Evolves.bind ?_ fun _ => ?_
  · refine Leads.forM (R := Evolves) Evolves.refl Evolves.trans fun corner _ => ?_
    exact (evolves_point _ _).discard
  · refine Leads.mapM (R := Evolves) Evolves.refl Evolves.trans fun i _ => ?_
    exact evolves_segmentBetween _ _ _

theorem evolves_movePoint (name : String) (v : Vec K) : Leads Evolves (movePoint name v) := by
  refine Evolves.bind (evolves_ask _) fun id => ?_
  intro b
  refine evolves_ask_bind fun t ht => ?_
  have moved := Sketch.Writes.setPosition (W := fun _ => True) (mapError_eq_ok.mp ht)
    fun _ _ => ⟨trivial, trivial⟩
  exact evolves_modify_log (.write _ moved rfl)

section Constraints

variable [Written K]

/-- The check comes after the entry in the history, which stays where the constraint is refused. -/
theorem outcome_push (name : String) (c : Constraint K) (b : Workbench K) :
    outcome (push name c) b =
      if b.autoCheck && !(Audit.finiteResiduals c b.sketch).passed then
        (.error (.checkFailed (Audit.finiteResiduals c b.sketch).check
            (Audit.finiteResiduals c b.sketch).detail),
          { b with sketch := c.release b.sketch
                   history := b.history ++ [.constrained name c.label] })
      else
        (.ok c.id,
          { b with history := b.history ++ [.constrained name c.label]
                   constraints := b.constraints ++ [⟨name, c⟩] }) := by
  unfold push
  rw [outcome_bind_ok (outcome_log _ _), outcome_bind_ok (outcome_get _)]
  dsimp only
  split
  · rw [outcome_bind_ok (outcome_onSketch _ _)]
    rfl
  · rfl

/-- A constraint that was made is added, or released if the check refuses it. -/
theorem changes_push {c : Constraint K} (name : String) (sound : Sound b)
    (made : c.Installs b.sketch t) :
    Changes b (outcome (push name c) { b with sketch := t }).2 := by
  rw [outcome_push]
  split
  · exact .single (.keep (made.release sound.ordered.keyed) rfl)
  · refine .single (.install c made ?_)
    change stakesOf (b.constraints ++ [⟨name, c⟩]) = _
    simp [stakes, stakesOf]

/-- Whichever way it is made, a constraint joins the list or is gone again. -/
theorem evolves_made (name : String) {m : Sketch.Edit K ConstraintError (Constraint K)}
    (hm : ∀ s : Sketch K, s.Ordered → Leaves s (outcome m s)) :
    Leads Evolves (editSketch .constraint m >>= push name) := by
  intro b sound
  refine changes_edit (hm b.sketch sound.ordered) fun c t made => ?_
  exact changes_push name sound made

theorem evolves_constrain (name : String) (kind : Kind) (objects : List String) :
    Leads (Evolves (K := K)) (constrain name kind objects) := by
  refine Evolves.bind (evolves_ask _) fun _ => ?_
  refine Evolves.bind ?_ fun ids => evolves_made name fun s o => ?_
  · exact Leads.mapM (R := Evolves) Evolves.refl Evolves.trans fun n _ => evolves_ask _
  · exact Constraint.leaves_create kind ids o

theorem evolves_constrainWith (name : String) (kind : Kind) (objects : List String)
    (constants : Table (Constant.Raw K)) :
    Leads Evolves (constrainWith name kind objects constants) := by
  refine Evolves.bind (evolves_ask _) fun _ => ?_
  refine Evolves.bind ?_ fun ids => evolves_made name fun s _ => ?_
  · exact Leads.mapM (R := Evolves) Evolves.refl Evolves.trans fun n _ => evolves_ask _
  · exact Constraint.leaves_make kind ids constants .standard s

theorem evolves_consistency (name object : String) :
    Leads (Evolves (K := K)) (consistency name object) := by
  refine Evolves.bind (evolves_ask _) fun _ => ?_
  refine Evolves.bind (evolves_ask _) fun id => ?_
  intro b sound
  refine changes_edit (Constraint.leavesAny_consistencyFor id b.sketch) fun made t h => ?_
  cases made with
  | some c => exact changes_push name sound h
  | none => exact .single (.keep h rfl)

omit [Scalar K] [Written K] in
/-- A constraint may be replaced under its name by one that holds the same of the sketch. -/
theorem stakesOf_replaceFirst {f : Constraint K → Constraint K} {name : String}
    {cs : List (NamedConstraint K)}
    (h : ∀ n, cs.find? (fun c => c.name == name) = some n →
      (f n.constraint).stake = n.constraint.stake) :
    stakesOf (replaceFirst name f cs) = stakesOf cs := by
  induction cs with
  | nil => rfl
  | cons c cs ih =>
    unfold replaceFirst
    split
    · rename_i hc
      have first := h c (by simp [hc])
      simp [stakesOf, first]
    · rename_i hc
      have rest := ih fun n hn => h n (by simp [hc, hn])
      simp only [stakesOf, List.map_cons] at rest ⊢
      rw [rest]

omit [Scalar K] [Written K] in
theorem evolves_setConstant (name constant : String) (value : Constant.Raw K) :
    Leads Evolves (setConstant name constant value) := by
  refine Evolves.bind (evolves_ask _).discard fun _ => ?_
  intro b
  exact evolves_modify_log (.keep (.refl _) (stakesOf_replaceFirst fun _ _ => rfl))

omit [Scalar K] [Written K] in
theorem named_eq_ok_iff {name : String} {n : NamedConstraint K} :
    b.named name = .ok n ↔ b.constraints.find? (fun c => c.name == name) = some n := by
  unfold named
  cases b.constraints.find? fun c => c.name == name <;> simp

theorem evolves_resync (name : String) : Leads (Evolves (K := K)) (resync name) := by
  intro b
  refine evolves_ask_bind fun c hc => ?_
  refine evolves_ask_bind fun d hd => ?_
  obtain ⟨n, hn, hnc⟩ := bind_eq_ok.mp hc
  obtain ⟨k, rfl⟩ := Constraint.resync_eq_ok (mapError_eq_ok.mp hd)
  cases hnc
  refine evolves_modify_log (.keep (.refl _) (stakesOf_replaceFirst fun m hm => ?_))
  obtain rfl := Option.some.inj (hm.symm.trans (named_eq_ok_iff.mp hn))
  rfl

omit [Scalar K] [Written K] in
theorem evolves_remove (name : String) : Leads (Evolves (K := K)) (remove name) := by
  intro b
  refine evolves_ask_bind fun c hc => ?_
  obtain ⟨n, hn, hnc⟩ := bind_eq_ok.mp hc
  cases hnc
  obtain ⟨hname, l, r, split, before⟩ := List.find?_eq_some_iff_append.mp (named_eq_ok_iff.mp hn)
  have erased : b.constraints.eraseP (fun d => d.name == name) = l ++ r := by
    rw [split, List.eraseP_append_right]
    · rw [List.eraseP_cons, hname, cond_true]
    · intro d hd
      simpa using before d hd
  refine evolves_modify_log (.remove n.constraint (stakesOf l) (stakesOf r) ?_ (.refl _) ?_)
  · simp [stakes, split, stakesOf]
  · change stakesOf (b.constraints.eraseP fun d => d.name == name) = _
    simp [erased, stakesOf]

omit [Written K] in
/-- A modifier that fails half way has written values and nothing else. -/
theorem evolves_applyModifiers : Leads (Evolves (K := K)) applyModifiers := by
  intro b
  unfold applyModifiers
  rw [outcome_bind_ok (outcome_get b)]
  refine Evolves.bind ?_ (fun _ => evolves_log _) b
  refine Leads.forM (R := Evolves) Evolves.refl Evolves.trans fun c _ b => ?_
  rw [outcome_editSketch]
  exact Change.evolves (.write _ (c.constraint.writes_modify b.sketch) rfl)

end Constraints

end Drafting.Workbench
