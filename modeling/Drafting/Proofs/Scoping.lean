import Drafting.Kind.Residuals
import Drafting.Kind.Scope
import Drafting.Proofs.Drawing
import Mathlib.Algebra.Ring.Nat

namespace Drafting

variable {K : Type}

def ShapeClass.admits : ShapeClass → ShapeKind → Bool
  | .only k, found => found == k
  | .round, found => found == .circle || found == .arc

namespace Sketch

variable {α : Type} {s t : Sketch K} {id a : ObjectId} {c d : ShapeClass}
  {objects : List ObjectId}

def IsA (s : Sketch K) (c : ShapeClass) (id : ObjectId) : Prop :=
  ∃ e, s.entity? id = some e ∧ c.admits e.shape.kind

/-- Each kind of shape is a class of its own. -/
theorem kind_eq_ok_iff {k : ShapeKind} : s.kind id = .ok k ↔ s.IsA (.only k) id := by
  rw [kind, bind_eq_ok]
  refine exists_congr fun e => and_congr entity_eq_ok_iff ?_
  simp [pure, Except.pure, ShapeClass.admits]

/-- An object is viewed as what its class says, and not otherwise. -/
theorem exists_asA {view : Shape → Option α} (h : ∀ x, (view x).isSome = c.admits x.kind) :
    (∃ a, s.asA id c view = .ok a) ↔ s.IsA c id := by
  constructor
  · intro ⟨a, ha⟩
    obtain ⟨e, he, hv⟩ := asA_eq_ok_iff.mp ha
    refine ⟨e, he, ?_⟩
    rw [← h, hv]
    rfl
  · intro ⟨e, he, ha⟩
    rw [← h] at ha
    obtain ⟨a, hv⟩ := Option.isSome_iff_exists.mp ha
    exact ⟨a, asA_eq_ok_iff.mpr ⟨e, he, hv⟩⟩

theorem exists_point : (∃ p, s.point id = .ok p) ↔ s.IsA (.only .point) id :=
  exists_asA fun x => by cases x <;> rfl

theorem exists_segment : (∃ g, s.segment id = .ok g) ↔ s.IsA (.only .segment) id :=
  exists_asA fun x => by cases x <;> rfl

theorem exists_arc : (∃ a, s.arc id = .ok a) ↔ s.IsA (.only .arc) id :=
  exists_asA fun x => by cases x <;> rfl

theorem exists_ellipse : (∃ e, s.ellipse id = .ok e) ↔ s.IsA (.only .ellipse) id :=
  exists_asA fun x => by cases x <;> rfl

theorem exists_bezier : (∃ b, s.bezier id = .ok b) ↔ s.IsA (.only .bezier) id :=
  exists_asA fun x => by cases x <;> rfl

/-- Arcs and circles have a view in common. -/
theorem exists_round : (∃ r, s.round id = .ok r) ↔ s.IsA .round id :=
  exists_asA fun x => by cases x <;> rfl

/-- An arc is round. -/
theorem round_of_arc {x : Arc} (h : s.arc id = .ok x) : s.round id = .ok ⟨x.c, x.r⟩ := by
  obtain ⟨⟨n, shape, owner⟩, he, hv⟩ := asA_eq_ok_iff.mp h
  cases shape <;> cases hv
  exact asA_eq_ok_iff.mpr ⟨_, he, rfl⟩

theorem IsA.round (h : s.IsA (.only .arc) id) : s.IsA .round id := by
  obtain ⟨e, he, arc⟩ := h
  exact ⟨e, he, Bool.or_eq_true_iff.mpr (.inr arc)⟩

theorem exists_position [Scalar K] :
    (∃ v, s.position id = .ok v) ↔ s.IsA (.only .point) id := by
  rw [← exists_point]
  constructor
  · intro ⟨v, hv⟩
    obtain ⟨p, hp, -⟩ := bind_eq_ok.mp hv
    exact ⟨p, hp⟩
  · intro ⟨p, hp⟩
    exact ⟨_, bind_eq_ok.mpr ⟨p, hp, rfl⟩⟩

/-- The objects are as many as the classes, and each is of the class in its place. -/
def Fits (s : Sketch K) (cs : List ShapeClass) (objects : List ObjectId) : Prop :=
  List.Forall₂ s.IsA cs objects

theorem fits_one : s.Fits [c] objects ↔ ∃ a, objects = [a] ∧ s.IsA c a := by
  simp [Fits, List.forall₂_cons_left_iff, and_comm]

theorem fits_two : s.Fits [c, d] objects ↔ ∃ a b, objects = [a, b] ∧ s.IsA c a ∧ s.IsA d b := by
  simp only [Fits, List.forall₂_cons_left_iff, List.forall₂_nil_left_iff]
  constructor
  · rintro ⟨a, _, ha, ⟨b, _, hb, rfl, rfl⟩, rfl⟩
    exact ⟨a, b, rfl, ha, hb⟩
  · rintro ⟨a, b, rfl, ha, hb⟩
    exact ⟨a, [b], ha, ⟨b, [], hb, rfl, rfl⟩, rfl⟩

theorem fits_pair {a b : ObjectId} : s.Fits [c, d] [a, b] ↔ s.IsA c a ∧ s.IsA d b := by
  simp [Fits]

theorem fits_three {e : ShapeClass} : s.Fits [c, d, e] objects ↔
    ∃ a b x, objects = [a, b, x] ∧ s.IsA c a ∧ s.IsA d b ∧ s.IsA e x := by
  constructor
  · intro h
    obtain ⟨a, _, ha, rest, rfl⟩ := List.forall₂_cons_left_iff.mp h
    obtain ⟨b, x, rfl, hb, hx⟩ := fits_two.mp rest
    exact ⟨a, b, x, rfl, ha, hb, hx⟩
  · rintro ⟨a, b, x, rfl, ha, hb, hx⟩
    exact .cons ha (fits_two.mpr ⟨b, x, rfl, hb, hx⟩)

/-- Every object of the one is in the other with its shape. -/
def Keeps (s t : Sketch K) : Prop :=
  ∀ id e, s.entity? id = some e → ∃ d, t.entity? id = some d ∧ d.shape = e.shape

theorem SameShapes.keeps (h : SameShapes s t) : s.Keeps t := by
  intro id e he
  have drawn := h.entity? id
  rw [he] at drawn
  obtain ⟨d, hd, same⟩ := Option.map_eq_some_iff.mp drawn
  exact ⟨d, hd, (Prod.mk.inj same).2⟩

theorem Keeps.isA (h : s.Keeps t) (ha : s.IsA c id) : t.IsA c id := by
  obtain ⟨e, he, admitted⟩ := ha
  obtain ⟨d, hd, same⟩ := h id e he
  exact ⟨d, hd, same ▸ admitted⟩

/-- Objects that stay fit what they fitted. -/
theorem Keeps.fits (h : s.Keeps t) {cs : List ShapeClass} (fits : s.Fits cs objects) :
    t.Fits cs objects :=
  List.Forall₂.imp (fun _ _ => h.isA) fits

theorem Keeps.asA {view : Shape → Option α} {a : α} (h : s.Keeps t)
    (found : s.asA id c view = .ok a) : t.asA id c view = .ok a := by
  obtain ⟨e, he, hv⟩ := asA_eq_ok_iff.mp found
  obtain ⟨d, hd, same⟩ := h id e he
  exact asA_eq_ok_iff.mpr ⟨d, hd, same ▸ hv⟩

def Grounded (s : Sketch K) : Prop :=
  ∀ id e, s.entity? id = some e → ∀ c ∈ e.shape.children, s.IsA (.only .point) c

/-- Objects that were drawn in order are built on points that are there. -/
theorem Ordered.grounded (o : s.Ordered) : s.Grounded :=
  fun _ _ he c hc => exists_point.mp (o.children _ (List.mem_of_find?_eq_some he) c hc).2

theorem Grounded.sameShapes (g : s.Grounded) (h : SameShapes s t) : t.Grounded := by
  intro id d hd c hc
  obtain ⟨e, he, same⟩ := h.symm.keeps id d hd
  exact h.keeps.isA (g id e he c (same ▸ hc))

namespace Grounded

variable (g : s.Grounded)

include g

/-- The points of what an object is viewed as are points of the sketch. -/
theorem child {view : Shape → Option α} {x : α} (h : s.asA id c view = .ok x)
    (parts : ∀ shape, view shape = some x → a ∈ shape.children) : s.IsA (.only .point) a := by
  obtain ⟨e, he, hv⟩ := asA_eq_ok_iff.mp h
  exact g id e he a (parts e.shape hv)

theorem segment {l : Segment} (h : s.segment id = .ok l) :
    s.IsA (.only .point) l.a ∧ s.IsA (.only .point) l.b := by
  constructor
  all_goals
    refine g.child h fun shape hv => ?_
    cases shape <;> cases hv
    simp

theorem round {r : Round} (h : s.round id = .ok r) : s.IsA (.only .point) r.c := by
  refine g.child h fun shape hv => ?_
  cases shape <;> cases hv <;> simp

theorem arc {x : Arc} (h : s.arc id = .ok x) : s.IsA (.only .point) x.a ∧
    s.IsA (.only .point) x.b ∧ s.IsA (.only .point) x.c := by
  refine ⟨?_, ?_, ?_⟩
  all_goals
    refine g.child h fun shape hv => ?_
    cases shape <;> cases hv
    simp

theorem ellipse {x : Ellipse} (h : s.ellipse id = .ok x) :
    s.IsA (.only .point) x.ep1 ∧ s.IsA (.only .point) x.ep2 := by
  constructor
  all_goals
    refine g.child h fun shape hv => ?_
    cases shape <;> cases hv
    simp

theorem bezier {x : Bezier} (h : s.bezier id = .ok x) : s.IsA (.only .point) x.p0 ∧
    s.IsA (.only .point) x.p1 ∧ s.IsA (.only .point) x.p2 ∧ s.IsA (.only .point) x.p3 := by
  refine ⟨?_, ?_, ?_, ?_⟩
  all_goals
    refine g.child h fun shape hv => ?_
    cases shape <;> cases hv
    simp

end Grounded

end Sketch

def Part.span : Part → Nat
  | .own _ => 1
  | .child _ => 2

def ShapeKind.span : ShapeKind → Nat
  | .point => 2
  | .segment => 6
  | .circle => 3
  | .arc => 9
  | .ellipse => 5
  | .bezier => 8

theorem Shape.sum_span (x : Shape) : (x.parts.map Part.span).sum = x.kind.span := by
  cases x <;> rfl

namespace Sketch

variable {s t : Sketch K} {id : ObjectId}

theorem exists_partParams {parts : List Part}
    (points : ∀ c, .child c ∈ parts → s.IsA (.only .point) c) :
    ∃ lists, parts.mapM s.partParams = .ok lists ∧
      lists.flatten.length = (parts.map Part.span).sum := by
  induction parts with
  | nil => exact ⟨[], rfl, rfl⟩
  | cons part parts ih =>
    obtain ⟨lists, hl, len⟩ := ih fun c hc => points c (List.mem_cons_of_mem _ hc)
    cases part with
    | own h =>
      refine ⟨[h] :: lists, mapM_cons_eq_ok.mpr ⟨_, _, rfl, hl, rfl⟩, ?_⟩
      rw [List.flatten_cons, List.length_append, len]
      rfl
    | child c =>
      obtain ⟨p, hp⟩ := exists_point.mpr (points c (by simp))
      refine ⟨[p.x, p.y] :: lists,
        mapM_cons_eq_ok.mpr ⟨_, _, partParams_child hp, hl, rfl⟩, ?_⟩
      rw [List.flatten_cons, List.length_append, len]
      rfl

theorem objectParams_eq_ok {e : Entity} {lists : List (List Handle)}
    (he : s.entity? id = some e) (h : e.shape.parts.mapM s.partParams = .ok lists) :
    s.objectParams id = .ok lists.flatten :=
  bind_eq_ok.mpr ⟨e, entity_eq_ok_iff.mpr he, bind_eq_ok.mpr ⟨lists, h, rfl⟩⟩

theorem Keeps.objectParams (h : s.Keeps t) {hs : List Handle}
    (listed : s.objectParams id = .ok hs) : t.objectParams id = .ok hs := by
  obtain ⟨e, he, hparts⟩ := bind_eq_ok.mp listed
  obtain ⟨lists, hlists, flat⟩ := bind_eq_ok.mp hparts
  cases flat
  obtain ⟨d, hd, same⟩ := h id e (entity_eq_ok_iff.mp he)
  refine objectParams_eq_ok hd (same ▸ mapM_imp (fun part ks hk => ?_) hlists)
  cases part with
  | own k => exact hk
  | child c =>
    obtain ⟨p, hp, hxy⟩ := bind_eq_ok.mp hk
    exact bind_eq_ok.mpr ⟨p, h.asA hp, hxy⟩

/-- The parameters of every object can be listed, as many as its kind says. -/
theorem Grounded.objectParams (g : s.Grounded) {k : ShapeKind} (h : s.IsA (.only k) id) :
    ∃ hs, s.objectParams id = .ok hs ∧ hs.length = k.span := by
  obtain ⟨e, he, hk⟩ := h
  obtain ⟨lists, hl, len⟩ := exists_partParams fun c hc => g id e he c (Shape.mem_children.mpr hc)
  refine ⟨lists.flatten, objectParams_eq_ok he hl, ?_⟩
  rw [len, Shape.sum_span, eq_of_beq hk]

end Sketch

def ScopeParam.isFresh : ScopeParam K → Bool
  | .held _ => false
  | .fresh _ => true

namespace Gather

variable {α β : Type} {s : Sketch K} {id : ObjectId} {P Q : Prop} {n m b d : Nat}
  {ok : α → Prop} {ok' : β → Prop}

/-- Gathering succeeds where `P` holds and nowhere else; then `ok` holds of its answer, and it adds
`n` parameters, `b` of them new. -/
structure Takes (x : Gather K α) (P : Prop) (ok : α → Prop) (n b : Nat) : Prop where
  fails : ¬P → ∀ acc, ∃ e r, outcome x acc = (.error e, r)
  adds : P → ∃ a ps, ok a ∧ ps.length = n ∧ ps.countP ScopeParam.isFresh = b ∧
    ∀ acc, outcome x acc = (.ok a, acc ++ ps)

namespace Takes

/-- The second step may rely on what the first one found. -/
theorem bind {x : Gather K α} {f : α → Gather K β} (h : Takes x P ok n b)
    (h' : P → ∀ a, ok a → Takes (f a) Q ok' m d) :
    Takes (x >>= f) (P ∧ Q) ok' (n + m) (b + d) where
  fails := by
    intro no acc
    by_cases hp : P
    · obtain ⟨a, ps, ha, -, -, adds⟩ := h.adds hp
      obtain ⟨e, r, he⟩ := (h' hp a ha).fails (fun hq => no ⟨hp, hq⟩) (acc ++ ps)
      exact ⟨e, r, (outcome_bind_ok (adds acc) f).trans he⟩
    · obtain ⟨e, r, he⟩ := h.fails hp acc
      exact ⟨e, r, outcome_bind_error he f⟩
  adds := by
    intro ⟨hp, hq⟩
    obtain ⟨a, ps, ha, hn, hb, adds⟩ := h.adds hp
    obtain ⟨c, qs, hc, hm, hd, adds'⟩ := (h' hp a ha).adds hq
    refine ⟨c, ps ++ qs, hc, ?_, ?_, fun acc => ?_⟩
    · rw [List.length_append, hn, hm]
    · rw [List.countP_append, hb, hd]
    · rw [outcome_bind_ok (adds acc), adds', List.append_assoc]

theorem imp {ok' : α → Prop} {x : Gather K α} (h : Takes x P ok n b) (iff : P ↔ Q)
    (weaker : ∀ a, ok a → ok' a) : Takes x Q ok' n b where
  fails := fun no => h.fails fun hp => no (iff.mp hp)
  adds := fun hq =>
    let ⟨a, ps, ha, rest⟩ := h.adds (iff.mpr hq)
    ⟨a, ps, weaker a ha, rest⟩

theorem iff {x : Gather K α} (h : Takes x P ok n b) (iff : P ↔ Q) : Takes x Q ok n b :=
  h.imp iff fun _ => id

/-- After a step that always succeeds. -/
theorem next {x : Gather K α} {y : Gather K β} (h : Takes x True ok n b)
    (h' : Takes y Q ok' m d) : Takes (x >>= fun _ => y) Q ok' (n + m) (b + d) :=
  (h.bind fun _ _ _ => h').iff (by rw [true_and])

end Takes

theorem takes_pure {a : α} (h : ok a) : Takes (pure a : Gather K α) True ok 0 0 where
  fails := fun no => absurd trivial no
  adds := fun _ => ⟨a, [], h, rfl, rfl, fun acc => by simp⟩

theorem takes_discard {x : Gather K α} (h : Takes x P ok n b) :
    Takes (discard x) P (fun _ => True) n b :=
  (h.bind fun _ _ _ => takes_pure trivial).iff (by rw [and_true])

/-- A look adds nothing, and succeeds where there is an answer. -/
theorem takes_look {x : Except SketchError α} (h : (∃ a, x = .ok a) ↔ P) :
    Takes (K := K) (look x) P (fun a => x = .ok a) 0 0 where
  fails := by
    intro no acc
    cases x with
    | ok a => exact absurd (h.mp ⟨a, rfl⟩) no
    | error e => exact ⟨.ofSketch e, acc, rfl⟩
  adds := by
    intro hp
    obtain ⟨a, rfl⟩ := h.mpr hp
    exact ⟨a, [], rfl, rfl, rfl, fun acc => by simp [look]⟩

/-- What is known to be there is found. -/
theorem takes_found {x : Except SketchError α} (h : ∃ a, x = .ok a) :
    Takes (K := K) (look x) True (fun a => x = .ok a) 0 0 :=
  takes_look (iff_true_intro h)

theorem takes_hold (h : Handle) : Takes (K := K) (hold h) True (fun _ => True) 1 0 where
  fails := fun no => absurd trivial no
  adds := fun _ => ⟨(), [.held h], trivial, rfl, rfl, fun _ => rfl⟩

theorem takes_bring (p : Param K) : Takes (bring p) True (fun _ => True) 1 1 where
  fails := fun no => absurd trivial no
  adds := fun _ => ⟨(), [.fresh p], trivial, rfl, rfl, fun _ => rfl⟩

theorem outcome_hold (h : Handle) (acc : List (ScopeParam K)) :
    outcome (hold h) acc = (.ok (), acc ++ [.held h]) := rfl

theorem outcome_forM_hold (hs : List Handle) (acc : List (ScopeParam K)) :
    outcome (hs.forM (hold (K := K))) acc = (.ok (), acc ++ hs.map .held) := by
  induction hs generalizing acc with
  | nil => simp
  | cons h hs ih =>
    refine (outcome_bind_ok (outcome_hold h acc) _).trans ?_
    rw [ih]
    simp

theorem outcome_visit {hs : List Handle} (h : s.objectParams id = .ok hs)
    (acc : List (ScopeParam K)) :
    outcome (visit s id) acc = (.ok (), acc ++ hs.map .held) := by
  rw [visit, h]
  exact outcome_forM_hold hs acc

/-- A visit never fails once the object is known to be there. -/
theorem takes_visit (g : s.Grounded) {k : ShapeKind} (h : s.IsA (.only k) id) :
    Takes (visit s id) True (fun _ => True) k.span 0 where
  fails := fun no => absurd trivial no
  adds := by
    intro _
    obtain ⟨hs, listed, len⟩ := g.objectParams h
    refine ⟨(), hs.map .held, trivial, ?_, ?_, outcome_visit listed⟩
    · rw [List.length_map, len]
    · simp [ScopeParam.isFresh]

theorem takes_point (id : ObjectId) :
    Takes (K := K) (discard (look (s.point id))) (s.IsA (.only .point) id) (fun _ => True) 0 0 :=
  takes_discard (takes_look Sketch.exists_point)

/-- The position of a point that is known to be there. -/
theorem takes_position [Scalar K] (h : s.IsA (.only .point) id) :
    Takes (K := K) (look (s.position id)) True (fun _ => True) 0 0 :=
  (takes_found (Sketch.exists_position.mpr h)).imp Iff.rfl fun _ _ => trivial

/-- The ends of a segment that was found are points, so that later steps need not ask. -/
theorem takes_segment (g : s.Grounded) (id : ObjectId) :
    Takes (K := K) (look (s.segment id)) (s.IsA (.only .segment) id)
      (fun l => s.IsA (.only .point) l.a ∧ s.IsA (.only .point) l.b) 0 0 :=
  (takes_look Sketch.exists_segment).imp Iff.rfl fun _ => g.segment

theorem takes_round (g : s.Grounded) (id : ObjectId) :
    Takes (K := K) (look (s.round id)) (s.IsA .round id) (fun r => s.IsA (.only .point) r.c) 0 0 :=
  (takes_look Sketch.exists_round).imp Iff.rfl fun _ => g.round

theorem takes_arc (g : s.Grounded) (id : ObjectId) :
    Takes (K := K) (look (s.arc id)) (s.IsA (.only .arc) id)
      (fun x => s.IsA (.only .point) x.c) 0 0 :=
  (takes_look Sketch.exists_arc).imp Iff.rfl fun _ h => (g.arc h).2.2

theorem takes_ellipse (g : s.Grounded) (id : ObjectId) :
    Takes (K := K) (look (s.ellipse id)) (s.IsA (.only .ellipse) id)
      (fun x => s.IsA (.only .point) x.ep1 ∧ s.IsA (.only .point) x.ep2) 0 0 :=
  (takes_look Sketch.exists_ellipse).imp Iff.rfl fun _ => g.ellipse

theorem takes_bezier (g : s.Grounded) (id : ObjectId) :
    Takes (K := K) (look (s.bezier id)) (s.IsA (.only .bezier) id)
      (fun x => s.IsA (.only .point) x.p0 ∧ s.IsA (.only .point) x.p1 ∧
        s.IsA (.only .point) x.p2 ∧ s.IsA (.only .point) x.p3) 0 0 :=
  (takes_look Sketch.exists_bezier).imp Iff.rfl fun _ => g.bezier

theorem takes_visitLine (g : s.Grounded) (id : ObjectId) :
    Takes (visitLine s id) (s.IsA (.only .segment) id) (fun _ => True) 3 0 :=
  ((takes_segment g id).bind fun _ l ends => (takes_hold l.ang).next (takes_visit g ends.1)).iff
    (by rw [and_true])

theorem takes_visitRound (g : s.Grounded) {r : Round} (h : s.IsA (.only .point) r.c) :
    Takes (visitRound s r) True (fun _ => True) 3 0 :=
  (takes_visit g h).next (takes_hold r.r)

theorem takes_bringCurveParam (o : Options K) (name : String) :
    Takes (bringCurveParam o name) True (fun _ => True) 1 1 :=
  takes_bring _

end Gather

end Drafting
