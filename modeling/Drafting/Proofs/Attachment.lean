import Drafting.Proofs.Catalogue
import Drafting.Proofs.Gathering

namespace Drafting

open Constant (Raw)

variable {K : Type}

namespace Sketch

variable {s t : Sketch K} {id : ObjectId}

/-- Counting a constraint leaves the objects alone. -/
theorem keeps_numbered (s : Sketch K) : s.Keeps s.numbered := fun _ e he => ⟨e, he, rfl⟩

theorem Keeps.controls {x : Bezier} {p q m n : Point} (h : s.Keeps t)
    (c : s.Controls id x p q m n) : t.Controls id x p q m n :=
  ⟨h.asA c.curve, h.asA c.first, h.asA c.second, h.asA c.third, h.asA c.last⟩

namespace Grounded

variable (g : s.Grounded)

include g

/-- What is built over a segment finds it with both of its ends. -/
theorem exists_segment (h : s.IsA (.only .segment) id) : ∃ l p q,
    s.segment id = .ok l ∧ s.point l.a = .ok p ∧ s.point l.b = .ok q := by
  obtain ⟨l, hl⟩ := Sketch.exists_segment.mpr h
  obtain ⟨p, hp⟩ := exists_point.mpr (g.segment hl).1
  obtain ⟨q, hq⟩ := exists_point.mpr (g.segment hl).2
  exact ⟨l, p, q, hl, hp, hq⟩

/-- What is built over a point and a segment finds both, and the ends of the segment. -/
theorem exists_pointAndSegment {pt seg : ObjectId}
    (h : s.Fits [.only .point, .only .segment] [pt, seg]) : ∃ p l a b,
      s.point pt = .ok p ∧ s.segment seg = .ok l ∧ s.point l.a = .ok a ∧ s.point l.b = .ok b := by
  obtain ⟨isPoint, isSegment⟩ := fits_pair.mp h
  obtain ⟨p, hp⟩ := exists_point.mpr isPoint
  obtain ⟨l, a, b, hl, ha, hb⟩ := g.exists_segment isSegment
  exact ⟨p, l, a, b, hp, hl, ha, hb⟩

theorem exists_round (h : s.IsA .round id) :
    ∃ r m, s.round id = .ok r ∧ s.point r.c = .ok m := by
  obtain ⟨r, hr⟩ := Sketch.exists_round.mpr h
  obtain ⟨m, hm⟩ := exists_point.mpr (g.round hr)
  exact ⟨r, m, hr, hm⟩

theorem exists_ellipse (h : s.IsA (.only .ellipse) id) : ∃ e p q,
    s.ellipse id = .ok e ∧ s.point e.ep1 = .ok p ∧ s.point e.ep2 = .ok q := by
  obtain ⟨e, he⟩ := Sketch.exists_ellipse.mpr h
  obtain ⟨p, hp⟩ := exists_point.mpr (g.ellipse he).1
  obtain ⟨q, hq⟩ := exists_point.mpr (g.ellipse he).2
  exact ⟨e, p, q, he, hp, hq⟩

theorem exists_controls (h : s.IsA (.only .bezier) id) :
    ∃ x p q m n, s.Controls id x p q m n := by
  obtain ⟨x, hx⟩ := exists_bezier.mpr h
  obtain ⟨first, second, third, last⟩ := g.bezier hx
  obtain ⟨p, hp⟩ := exists_point.mpr first
  obtain ⟨q, hq⟩ := exists_point.mpr second
  obtain ⟨m, hm⟩ := exists_point.mpr third
  obtain ⟨n, hn⟩ := exists_point.mpr last
  exact ⟨x, p, q, m, n, hx, hp, hq, hm, hn⟩

end Grounded

end Sketch

namespace Constraint

/-- What became of the parameters of a scope: `hs` are their handles, and under those of them that
are new (`bs`) the sketch has what was to be added. -/
def Realized (t : Sketch K) : List (ScopeParam K) → (hs bs : List Handle) → Prop
  | [], hs, bs => hs = [] ∧ bs = []
  | .held h :: ps, hs, bs => ∃ ks, hs = h :: ks ∧ Realized t ps ks bs
  | .fresh p :: ps, hs, bs =>
    ∃ h ks cs, hs = h :: ks ∧ bs = h :: cs ∧ t.param? h = some p ∧ Realized t ps ks cs

section Realized

variable {t : Sketch K} {hs ks ms bs : List Handle} {ps : List (ScopeParam K)}

theorem Realized.append (r : Realized t (hs.map .held ++ ps) ks bs) :
    ∃ ms, ks = hs ++ ms ∧ Realized t ps ms bs := by
  induction hs generalizing ks with
  | nil => exact ⟨ks, rfl, r⟩
  | cons h hs ih =>
    obtain ⟨_, rfl, tail⟩ := r
    obtain ⟨ms, rfl, rest⟩ := ih tail
    exact ⟨ms, rfl, rest⟩

theorem Realized.held (r : Realized t (hs.map .held) ks bs) : ks = hs ∧ bs = [] := by
  rw [← List.append_nil (hs.map _)] at r
  obtain ⟨_, rfl, rfl, rfl⟩ := r.append
  simp

theorem Realized.fresh {fs : List (Param K)} (r : Realized t (fs.map .fresh ++ ps) hs bs) :
    ∃ news ms cs, hs = news ++ ms ∧ bs = news ++ cs ∧
      List.Forall₂ (fun h p => t.param? h = some p) news fs ∧ Realized t ps ms cs := by
  induction fs generalizing hs bs with
  | nil => exact ⟨[], hs, bs, rfl, rfl, .nil, r⟩
  | cons p fs ih =>
    obtain ⟨h, _, _, rfl, rfl, found, tail⟩ := r
    obtain ⟨news, ms, cs, rfl, rfl, all, rest⟩ := ih tail
    exact ⟨h :: news, ms, cs, rfl, rfl, .cons found all, rest⟩

/-- Where the new parameters stand together between those of the objects. -/
theorem Realized.between (hs : List Handle) (fs : List (Param K)) (ms : List Handle)
    (r : Realized t (hs.map .held ++ (fs.map .fresh ++ ms.map .held)) ks bs) :
    ks = hs ++ (bs ++ ms) ∧ List.Forall₂ (fun h p => t.param? h = some p) bs fs := by
  obtain ⟨_, rfl, rest⟩ := r.append
  obtain ⟨news, _, _, rfl, rfl, all, last⟩ := rest.fresh
  obtain ⟨rfl, rfl⟩ := last.held
  rw [List.append_nil]
  exact ⟨rfl, all⟩

/-- The parameters of a scope are added in its order, those that are held are left as they are. -/
theorem realized_allocate (ps : List (ScopeParam K)) (s : Sketch K) :
    Realized ((allocate ps).run s).2 ps ((allocate ps).run s).1.params
      ((allocate ps).run s).1.auxiliary := by
  induction ps generalizing s with
  | nil => exact ⟨rfl, rfl⟩
  | cons p ps ih =>
    cases p with
    | held h => exact ⟨_, rfl, ih s⟩
    | fresh p =>
      refine ⟨s.params.next, _, _, rfl, rfl, ?_, ih _⟩
      -- what is added later has another handle
      have later := (grows_allocate ps ((Sketch.addParam p).run s).2).params
      have here := s.params.get?_insert_next p
      have apart := later.apart (Option.isSome_of_eq_some here)
      exact (later.others _ apart).trans here

end Realized

variable [Scalar K] {s t u : Sketch K} {c : Constraint K} {k : Kind} {objects : List ObjectId}
  {constants : Table (Raw K)} {o : Options K} {ps : List (ScopeParam K)}

theorem realized_make (residual : k.isModifier = false)
    (added : Gather.Adds (k.gather s.numbered o objects) () ps)
    (h : outcome (make k objects constants o) s = (.ok c, t)) :
    Realized t ps c.params c.auxiliary := by
  obtain ⟨-, scope, u, taken, claimed, rfl⟩ := make_eq_ok.mp h
  have targets : k.targets objects = [] := by
    rw [Kind.targets, Kind.split?, residual]
    rfl
  rw [targets, Sketch.claim_nil] at claimed
  cases claimed
  rw [outcome_takeScope, added []] at taken
  cases taken
  exact realized_allocate ps s.numbered

/-- The constraint was just made of the objects, in one of the ways there are: with constants that
were given or measured, to keep an object consistent, or from a record. -/
inductive Makes (k : Kind) (objects : List ObjectId) (s : Sketch K) (c : Constraint K)
    (t : Sketch K) : Prop where
  | given (constants : Table (Raw K)) (o : Options K)
      (h : outcome (make k objects constants o) s = (.ok c, t))
  | measured [Written K] (h : outcome (create k objects) s = (.ok c, t))
  | consistent (object : ObjectId) (h : outcome (consistencyFor object) s = (.ok (some c), t))
      (kind : c.kind = k) (same : c.objects = objects)
  | recorded (index : ObjectId → Option ObjectId) (r : Record K)
      (h : outcome (readVia index r) s = (.ok c, t)) (kind : c.kind = k)
      (same : c.objects = objects)

theorem make_of_consistencyFor {object : ObjectId}
    (h : outcome (consistencyFor object) s = (.ok (some c), t)) :
    ∃ made, outcome (make c.kind c.objects .empty .standard) s = (.ok made, t) ∧
      c = { made with isInternal := true } := by
  unfold consistencyFor at h
  obtain ⟨kind, u, asked, made⟩ := outcome_bind_eq_ok.mp h
  obtain ⟨-, rfl⟩ := Sketch.outcome_ask_eq_ok.mp asked
  have of_make (k : Kind) (h : outcome (do
      let c ← make k [object] .empty .standard
      pure (some { c with isInternal := true })) s = (.ok (some c), t)) :
      ∃ made, outcome (make c.kind c.objects .empty .standard) s = (.ok made, t) ∧
        c = { made with isInternal := true } := by
    obtain ⟨d, v, made, same⟩ := outcome_bind_eq_ok.mp h
    cases same
    obtain ⟨kind, objects, -⟩ := fields_make made
    rw [← kind, ← objects] at made
    exact ⟨d, made, rfl⟩
  cases kind with
  | segment => exact of_make .segmentConsistency made
  | arc => exact of_make .arcConsistency made
  | _ => cases made

theorem make_of_readVia {index : ObjectId → Option ObjectId} {r : Record K}
    (h : outcome (readVia index r) s = (.ok c, t)) :
    outcome (make c.kind c.objects r.constants .standard) s = (.ok c, t) := by
  unfold readVia at h
  obtain ⟨objects, u, found, made⟩ := outcome_bind_eq_ok.mp h
  -- to look the objects up leaves the sketch as it is, also where they are not found
  have looked := congrArg Prod.snd found
  rw [outcome_mapM_of_same fun id u => by cases index id <;> rfl] at looked
  obtain rfl : s = u := looked
  cases kind : Kind.ofId? r.typeId with
  | none =>
    rw [kind] at made
    cases made
  | some k =>
    rw [kind] at made
    obtain ⟨rfl, rfl, -⟩ := fields_make made
    exact made

/-- Whichever way it is, a scope is taken and no more than constants are set. -/
theorem Makes.make (m : Makes k objects s c t) : ∃ made constants o table internal,
    outcome (make k objects constants o) s = (.ok made, t) ∧
      c = { made with constants := table, isInternal := internal } := by
  cases m with
  | given constants o h => exact ⟨c, constants, o, c.constants, c.isInternal, h, rfl⟩
  | measured h =>
    obtain ⟨made, hm, measured⟩ := create_eq_ok.mp h
    obtain ⟨table, rfl⟩ := initConstants_eq_ok measured
    exact ⟨made, .empty, .standard, table, made.isInternal, hm, rfl⟩
  | consistent object h kind same =>
    subst kind same
    obtain ⟨made, hm, rfl⟩ := make_of_consistencyFor h
    exact ⟨made, .empty, .standard, made.constants, true, hm, rfl⟩
  | recorded index r h kind same =>
    subst kind same
    exact ⟨c, r.constants, .standard, c.constants, c.isInternal, make_of_readVia h, rfl⟩

theorem Makes.kind (m : Makes k objects s c t) : c.kind = k := by
  obtain ⟨made, constants, o, table, internal, h, rfl⟩ := m.make
  exact (fields_make h).1

theorem Makes.formed (m : Makes k objects s c t) (g : s.Grounded) : c.Formed s := by
  obtain ⟨made, constants, o, table, internal, h, rfl⟩ := m.make
  have f := formed_make g h
  exact ⟨f.suits, f.params, f.auxiliary, f.sources, f.targets⟩

theorem Makes.installs (m : Makes k objects s c t) : c.Installs s t := by
  obtain ⟨made, constants, o, table, internal, h, rfl⟩ := m.make
  have i := (leaves_make k objects constants o s).installs h
  exact ⟨i.entities, i.lastObject, i.unowned, i.params, i.numbered⟩

theorem Makes.keeps (m : Makes k objects s c t) : s.Keeps t := m.installs.sameShapes.keeps

theorem Makes.fits (m : Makes k objects s c t) (g : s.Grounded) (residual : k.isModifier = false) :
    s.Fits k.signature objects := by
  obtain ⟨made, constants, o, table, internal, h, rfl⟩ := m.make
  exact (exists_make_iff constants o g residual).mp ⟨made, t, h⟩

/-- A constraint has the scope that is gathered for it. -/
theorem Makes.realized (m : Makes k objects s c t) (residual : k.isModifier = false)
    (added : Gather.Adds (k.gather s.numbered c.options objects) () ps) :
    c.kind = k ∧ Realized t ps c.params c.auxiliary := by
  obtain ⟨made, constants, o, table, internal, h, rfl⟩ := m.make
  obtain ⟨kind, -, -, rfl⟩ := fields_make h
  exact ⟨kind, realized_make (c := made) residual added h⟩

/-- What was there keeps its value. -/
theorem Makes.value (m : Makes k objects s c t) {h : Handle} (live : (s.param? h).isSome) :
    t.value h = s.value h := by
  have gains := m.installs.params
  have same : t.param? h = s.param? h := gains.others h (gains.apart live)
  rw [Sketch.value, Sketch.value, same]

theorem Makes.spot {id : ObjectId} {p : Point} (m : Makes k objects s c t) (live : s.Live)
    (hp : s.point id = .ok p) : t.spot p = s.spot p := by
  obtain ⟨hx, hy⟩ := live.point hp
  rw [Sketch.spot, m.value hx, m.value hy]
  rfl

/-- Points stay where they are while a constraint is made. -/
theorem Makes.position {id : ObjectId} {v : Vec K} (m : Makes k objects s c t) (live : s.Live)
    (h : s.position id = .ok v) : t.position id = .ok v := by
  obtain ⟨p, hp, shown⟩ := bind_eq_ok.mp h
  cases shown
  rw [Sketch.position_of_point (m.keeps.asA hp)]
  exact congrArg Except.ok (m.spot live hp)

/-- The constraint was made of objects that are still there. Since then values may have changed, and
so may its constants. -/
def On (c : Constraint K) (k : Kind) (objects : List ObjectId) (u : Sketch K) : Prop :=
  ∃ s made t table, s.Grounded ∧ Makes k objects s made t ∧ s.Keeps u ∧
    c = { made with constants := table }

theorem Makes.on (m : Makes k objects s c t) (g : s.Grounded) (keeps : s.Keeps u) :
    c.On k objects u :=
  ⟨s, c, t, c.constants, g, m, keeps, rfl⟩

theorem On.kind (h : c.On k objects u) : c.kind = k := by
  obtain ⟨s, made, t, table, -, m, -, rfl⟩ := h
  exact m.kind

/-- It stays one with other constants. -/
theorem On.withConstants (h : c.On k objects u) (table : Table (Raw K)) :
    { c with constants := table }.On k objects u := by
  obtain ⟨s, made, t, _, g, m, keeps, rfl⟩ := h
  exact ⟨s, made, t, table, g, m, keeps, rfl⟩

variable (k objects constants o) in
/-- There is a constraint on all objects that fit, with any constants and any options. -/
theorem exists_makes (g : s.Grounded) (residual : k.isModifier = false)
    (fits : s.Fits k.signature objects) : ∃ c t, Makes k objects s c t ∧ c.kind = k ∧
      c.constants = constants ∧ c.options = o := by
  obtain ⟨c, t, made⟩ := (exists_make_iff constants o g residual).mpr fits
  obtain ⟨kind, -, given, chosen⟩ := fields_make made
  exact ⟨c, t, .given constants o made, kind, given, chosen⟩

variable (k objects constants) in
theorem exists_on (g : s.Grounded) (residual : k.isModifier = false)
    (fits : s.Fits k.signature objects) (keeps : s.Keeps u) :
    ∃ c : Constraint K, c.On k objects u ∧ c.kind = k ∧ c.constants = constants := by
  obtain ⟨c, t, makes, kind, given, -⟩ := exists_makes k objects constants .standard g residual fits
  exact ⟨c, makes.on g keeps, kind, given⟩

/-- The scope of a constraint is the one that was gathered when it was made. -/
theorem On.exists_scope (h : c.On k objects u) (residual : k.isModifier = false) :
    ∃ s t, s.Grounded ∧ s.Keeps u ∧ s.Fits k.signature objects ∧
      ∀ ps, Gather.Adds (k.gather s c.options objects) () ps →
        c.kind = k ∧ Realized t ps c.params c.auxiliary := by
  obtain ⟨s, made, t, table, g, m, keeps, rfl⟩ := h
  exact ⟨s.numbered, t, g, keeps, m.fits g residual, fun ps added => m.realized residual added⟩

section Residuals

variable [Written K] {hs : List Handle} {rs : List (Polynomial K)}

theorem residuals_eq (scope : c.kind = k ∧ c.params = hs)
    (residuals : k.residuals? hs c.resolved = some rs) : c.residuals = .ok rs := by
  rw [Constraint.residuals, scope.1, scope.2, Kind.residuals, residuals]

theorem residualValues_of (residuals : c.residuals = .ok rs) :
    c.residualValues u = .ok (rs.map (·.evaluate u.value)) :=
  bind_eq_ok.mpr ⟨rs, residuals, rfl⟩

/-- A constraint has the residuals of its kind over its scope, with values as they are now. -/
theorem residualValues_eq (scope : c.kind = k ∧ c.params = hs)
    (residuals : k.residuals? hs c.resolved = some rs) :
    c.residualValues u = .ok (rs.map (·.evaluate u.value)) :=
  residualValues_of (residuals_eq scope residuals)

/-- A constraint without parameters of its own has residuals over those of its objects. -/
theorem residuals_of_held (scope : c.kind = k ∧ Realized t (hs.map .held) c.params c.auxiliary)
    (residuals : k.residuals? hs c.resolved = some rs) : c.residuals = .ok rs :=
  residuals_eq ⟨scope.1, scope.2.held.1⟩ residuals

theorem residualValues_of_held
    (scope : c.kind = k ∧ Realized t (hs.map .held) c.params c.auxiliary)
    (residuals : k.residuals? hs c.resolved = some rs) :
    c.residualValues u = .ok (rs.map (·.evaluate u.value)) :=
  residualValues_eq ⟨scope.1, scope.2.held.1⟩ residuals

end Residuals

end Constraint

end Drafting
