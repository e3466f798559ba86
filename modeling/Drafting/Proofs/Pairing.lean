import Drafting.Proofs.Gathering
import Drafting.Proofs.Signature
import Drafting.Proofs.Visiting

namespace Drafting

open Gather (Adds look hold visit bring)

variable {K : Type} [Scalar K]

/-- Two sketches, and which parameters of the one go together with which of the other. Their values
are the same if they are compared at all. -/
structure Pairing (K : Type) [Scalar K] where
  left : Sketch K
  right : Sketch K
  leftOrdered : left.Ordered
  rightOrdered : right.Ordered
  same : Handle → Handle → Prop
  valued : Prop
  values : valued → ∀ h k, same h k → left.value h = right.value k

namespace Pairing

variable {P : Pairing K}

def Points (P : Pairing K) (a b : ObjectId) : Prop :=
  ∃ p q, P.left.point a = .ok p ∧ P.right.point b = .ok q ∧ P.same p.x q.x ∧ P.same p.y q.y

/-- Two objects of one kind, with listed parameters that go together. -/
structure Objects (P : Pairing K) (a b : ObjectId) : Prop where
  kind : ∃ k, P.left.kind a = .ok k ∧ P.right.kind b = .ok k
  params : ∃ hs ks, P.left.objectParams a = .ok hs ∧ P.right.objectParams b = .ok ks ∧
    List.Forall₂ P.same hs ks

structure Segments (P : Pairing K) (g g' : Segment) : Prop where
  a : P.Points g.a g'.a
  b : P.Points g.b g'.b
  ang : P.same g.ang g'.ang
  t : P.same g.t g'.t

structure Rounds (P : Pairing K) (r r' : Round) : Prop where
  c : P.Points r.c r'.c
  r : P.same r.r r'.r

structure Ellipses (P : Pairing K) (e e' : Ellipse) : Prop where
  ep1 : P.Points e.ep1 e'.ep1
  ep2 : P.Points e.ep2 e'.ep2
  r : P.same e.r e'.r

structure Curves (P : Pairing K) (b b' : Bezier) : Prop where
  p0 : P.Points b.p0 b'.p0
  p1 : P.Points b.p1 b'.p1
  p2 : P.Points b.p2 b'.p2
  p3 : P.Points b.p3 b'.p3

inductive Shapes (P : Pairing K) : Shape → Shape → Prop where
  | point {p q : Point} (x : P.same p.x q.x) (y : P.same p.y q.y) : P.Shapes (.point p) (.point q)
  | segment {g g' : Segment} (ends : P.Segments g g') : P.Shapes (.segment g) (.segment g')
  | circle {c c' : Circle} (round : P.Rounds ⟨c.c, c.r⟩ ⟨c'.c, c'.r⟩) :
    P.Shapes (.circle c) (.circle c')
  | arc {x x' : Arc} (round : P.Rounds ⟨x.c, x.r⟩ ⟨x'.c, x'.r⟩) : P.Shapes (.arc x) (.arc x')
  | ellipse {e e' : Ellipse} (axis : P.Ellipses e e') : P.Shapes (.ellipse e) (.ellipse e')
  | bezier {b b' : Bezier} (controls : P.Curves b b') : P.Shapes (.bezier b) (.bezier b')

/-- Where the lists of two shapes go together, so do their parts in each view. -/
theorem shapes_of_lists {x y : Shape} {hs ks : List Handle} (kind : x.kind = y.kind)
    (left : P.left.Lists x hs) (right : P.right.Lists y ks) (same : List.Forall₂ P.same hs ks) :
    P.Shapes x y := by
  cases left with
  | point p =>
    cases right <;> cases kind
    simp only [List.forall₂_cons, List.Forall₂.nil, and_true] at same
    exact .point same.1 same.2
  | segment g ha hb =>
    cases right <;> cases kind
    rename_i ha' hb'
    simp only [List.forall₂_cons, List.Forall₂.nil, and_true] at same
    obtain ⟨ax, ay, bx, b_y, ang, t⟩ := same
    exact .segment ⟨⟨_, _, ha, ha', ax, ay⟩, ⟨_, _, hb, hb', bx, b_y⟩, ang, t⟩
  | circle c hc =>
    cases right <;> cases kind
    rename_i hc'
    simp only [List.forall₂_cons, List.Forall₂.nil, and_true] at same
    obtain ⟨cx, cy, r⟩ := same
    exact .circle ⟨⟨_, _, hc, hc', cx, cy⟩, r⟩
  | arc x ha hb hc =>
    cases right <;> cases kind
    rename_i ha' hb' hc'
    simp only [List.forall₂_cons, List.Forall₂.nil, and_true] at same
    obtain ⟨r, -, -, -, -, -, -, cx, cy⟩ := same
    exact .arc ⟨⟨_, _, hc, hc', cx, cy⟩, r⟩
  | ellipse e hp hq =>
    cases right <;> cases kind
    rename_i hp' hq'
    simp only [List.forall₂_cons, List.Forall₂.nil, and_true] at same
    obtain ⟨px, py, qx, qy, r⟩ := same
    exact .ellipse ⟨⟨_, _, hp, hp', px, py⟩, ⟨_, _, hq, hq', qx, qy⟩, r⟩
  | bezier b h0 h1 h2 h3 =>
    cases right <;> cases kind
    rename_i h0' h1' h2' h3'
    simp only [List.forall₂_cons, List.Forall₂.nil, and_true] at same
    obtain ⟨x0, y0, x3, y3, x1, y1, x2, y2⟩ := same
    exact .bezier ⟨⟨_, _, h0, h0', x0, y0⟩, ⟨_, _, h1, h1', x1, y1⟩, ⟨_, _, h2, h2', x2, y2⟩,
      ⟨_, _, h3, h3', x3, y3⟩⟩

theorem Objects.shapes {a b : ObjectId} (h : P.Objects a b) :
    ∃ e d, P.left.entity? a = some e ∧ P.right.entity? b = some d ∧ P.Shapes e.shape d.shape := by
  obtain ⟨k, hk, hk'⟩ := h.kind
  obtain ⟨e, he, kind⟩ := Sketch.kind_eq_ok_iff.mp hk
  obtain ⟨d, hd, kind'⟩ := Sketch.kind_eq_ok_iff.mp hk'
  obtain ⟨hs, ks, params, params', same⟩ := h.params
  obtain ⟨_, found, listed⟩ := P.leftOrdered.exists_listed he
  obtain ⟨_, found', listed'⟩ := P.rightOrdered.exists_listed hd
  obtain rfl := Except.ok.inj (params.symm.trans found)
  obtain rfl := Except.ok.inj (params'.symm.trans found')
  exact ⟨e, d, he, hd, shapes_of_lists ((eq_of_beq kind).trans (eq_of_beq kind').symm) listed
    listed' same⟩

theorem Points.objects {a b : ObjectId} (h : P.Points a b) : P.Objects a b := by
  obtain ⟨p, q, hp, hq, x, y⟩ := h
  refine ⟨⟨.point, ?_, ?_⟩, [p.x, p.y], [q.x, q.y], Sketch.objectParams_point hp,
    Sketch.objectParams_point hq, .cons x (.cons y .nil)⟩
  · exact Sketch.kind_eq_ok_iff.mpr (Sketch.exists_point.mp ⟨p, hp⟩)
  · exact Sketch.kind_eq_ok_iff.mpr (Sketch.exists_point.mp ⟨q, hq⟩)

/-- Two objects that go together, of which the first is of the class, and so is the other. -/
structure Of (P : Pairing K) (c : ShapeClass) (a b : ObjectId) : Prop extends P.Objects a b where
  isA : P.left.IsA c a

section Of

variable {c : ShapeClass} {a b : ObjectId}

/-- What they are viewed as goes together as well. -/
theorem Of.view {α : Type} {f : Shape → Option α} {T : α → α → Prop} (h : P.Of c a b)
    (admits : ∀ x, (f x).isSome = c.admits x.kind)
    (goes : ∀ x y, P.Shapes x y → ∀ m, f x = some m → ∃ n, f y = some n ∧ T m n) :
    ∃ m n, P.left.asA a c f = .ok m ∧ P.right.asA b c f = .ok n ∧ T m n := by
  obtain ⟨e, d, he, hd, shapes⟩ := h.shapes
  obtain ⟨m, hm⟩ := (Sketch.exists_asA admits).mpr h.isA
  obtain ⟨e', he', viewed⟩ := Sketch.asA_eq_ok_iff.mp hm
  obtain rfl := Option.some.inj (he.symm.trans he')
  obtain ⟨n, hn, together⟩ := goes _ _ shapes m viewed
  exact ⟨m, n, hm, Sketch.asA_eq_ok_iff.mpr ⟨d, hd, hn⟩, together⟩

theorem Of.point (h : P.Of (.only .point) a b) : P.Points a b := by
  refine h.view (f := Shape.point?) (fun x => by cases x <;> rfl) fun x y shapes m viewed => ?_
  cases shapes <;> cases viewed
  rename_i q hx hy
  exact ⟨q, rfl, hx, hy⟩

theorem Of.segment (h : P.Of (.only .segment) a b) :
    ∃ g g', P.left.segment a = .ok g ∧ P.right.segment b = .ok g' ∧ P.Segments g g' := by
  refine h.view (f := Shape.segment?) (fun x => by cases x <;> rfl) fun x y shapes m viewed => ?_
  cases shapes <;> cases viewed
  exact ⟨_, rfl, by assumption⟩

theorem Of.round (h : P.Of .round a b) :
    ∃ r r', P.left.round a = .ok r ∧ P.right.round b = .ok r' ∧ P.Rounds r r' := by
  refine h.view (f := Shape.round?) (fun x => by cases x <;> rfl) fun x y shapes m viewed => ?_
  cases shapes <;> cases viewed <;> exact ⟨_, rfl, by assumption⟩

theorem Of.arc (h : P.Of (.only .arc) a b) :
    ∃ x x', P.left.arc a = .ok x ∧ P.right.arc b = .ok x' ∧ P.Rounds ⟨x.c, x.r⟩ ⟨x'.c, x'.r⟩ := by
  refine h.view (f := Shape.arc?) (fun x => by cases x <;> rfl) fun x y shapes m viewed => ?_
  cases shapes <;> cases viewed
  exact ⟨_, rfl, by assumption⟩

theorem Of.ellipse (h : P.Of (.only .ellipse) a b) :
    ∃ e e', P.left.ellipse a = .ok e ∧ P.right.ellipse b = .ok e' ∧ P.Ellipses e e' := by
  refine h.view (f := Shape.ellipse?) (fun x => by cases x <;> rfl) fun x y shapes m viewed => ?_
  cases shapes <;> cases viewed
  exact ⟨_, rfl, by assumption⟩

theorem Of.bezier (h : P.Of (.only .bezier) a b) :
    ∃ m n, P.left.bezier a = .ok m ∧ P.right.bezier b = .ok n ∧ P.Curves m n := by
  refine h.view (f := Shape.bezier?) (fun x => by cases x <;> rfl) fun x y shapes m viewed => ?_
  cases shapes <;> cases viewed
  exact ⟨_, rfl, by assumption⟩

end Of

section Lists

variable {as bs : List ObjectId} {c d f : ShapeClass} (like : List.Forall₂ P.Objects as bs)

include like

theorem one (fits : P.left.Fits [c] as) : ∃ a b, as = [a] ∧ bs = [b] ∧ P.Of c a b := by
  obtain ⟨a, rfl, ha⟩ := Sketch.fits_one.mp fits
  obtain ⟨b, _, h, rest, rfl⟩ := List.forall₂_cons_left_iff.mp like
  cases rest
  exact ⟨a, b, rfl, rfl, h, ha⟩

theorem two (fits : P.left.Fits [c, d] as) :
    ∃ a a' b b', as = [a, a'] ∧ bs = [b, b'] ∧ P.Of c a b ∧ P.Of d a' b' := by
  obtain ⟨a, a', rfl, ha, ha'⟩ := Sketch.fits_two.mp fits
  obtain ⟨b, _, h, rest, rfl⟩ := List.forall₂_cons_left_iff.mp like
  obtain ⟨_, b', one, rfl, of⟩ := P.one rest (Sketch.fits_one.mpr ⟨a', rfl, ha'⟩)
  cases one
  exact ⟨a, a', b, b', rfl, rfl, ⟨h, ha⟩, of⟩

theorem three (fits : P.left.Fits [c, d, f] as) :
    ∃ a a' a'' b b' b'', as = [a, a', a''] ∧ bs = [b, b', b''] ∧ P.Of c a b ∧ P.Of d a' b' ∧
      P.Of f a'' b'' := by
  obtain ⟨a, a', a'', rfl, ha, ha', ha''⟩ := Sketch.fits_three.mp fits
  obtain ⟨b, _, h, rest, rfl⟩ := List.forall₂_cons_left_iff.mp like
  obtain ⟨_, _, b', b'', two, rfl, of, of'⟩ :=
    P.two rest (Sketch.fits_two.mpr ⟨a', a'', rfl, ha', ha''⟩)
  cases two
  exact ⟨a, a', a'', b, b', b'', rfl, rfl, ⟨h, ha⟩, of, of'⟩

end Lists

/-- The same place of two scopes: parameters that go together, or new ones of one name and with the
same bounds, which start at the same value if values are compared. -/
inductive Places (P : Pairing K) : ScopeParam K → ScopeParam K → Prop where
  | held {h k : Handle} (same : P.same h k) : P.Places (.held h) (.held k)
  | fresh {p q : Param K} (name : p.name = q.name) (bounds : p.bounds = q.bounds)
    (value : P.valued → p.value = q.value) : P.Places (.fresh p) (.fresh q)

/-- Both gather, with answers of which `T` holds, and add the same place by place. -/
def Gathers {α β : Type} (P : Pairing K) (T : α → β → Prop) (x : Gather K α) (y : Gather K β) :
    Prop :=
  ∃ a b ps qs, T a b ∧ Adds x a ps ∧ Adds y b qs ∧ List.Forall₂ P.Places ps qs

abbrev Fills {α β : Type} (P : Pairing K) (x : Gather K α) (y : Gather K β) : Prop :=
  P.Gathers (fun _ _ => True) x y

section Steps

variable {α β γ δ : Type} {T : α → β → Prop} {U : γ → δ → Prop} {a b : ObjectId} {h k : Handle}

/-- What goes together after one step goes together after the next. -/
theorem Gathers.bind {x : Gather K α} {y : Gather K β} {f : α → Gather K γ} {g : β → Gather K δ}
    (first : P.Gathers T x y) (then_ : ∀ a b, T a b → P.Gathers U (f a) (g b)) :
    P.Gathers U (x >>= f) (y >>= g) := by
  obtain ⟨a, b, ps, qs, answers, hx, hy, places⟩ := first
  obtain ⟨c, d, ps', qs', answers', hf, hg, places'⟩ := then_ a b answers
  exact ⟨c, d, ps ++ ps', qs ++ qs', answers', hx.bind hf, hy.bind hg,
    List.rel_append places places'⟩

theorem Fills.next {x : Gather K α} {y : Gather K β} {f : Gather K γ} {g : Gather K δ}
    (first : P.Fills x y) (then_ : P.Gathers U f g) :
    P.Gathers U (x >>= fun _ => f) (y >>= fun _ => g) :=
  Gathers.bind first fun _ _ _ => then_

theorem gathers_pure {a : α} {b : β} (answers : T a b) :
    P.Gathers T (pure a : Gather K α) (pure b) :=
  ⟨a, b, [], [], answers, Gather.adds_pure a, Gather.adds_pure b, .nil⟩

theorem gathers_look {x : Except SketchError α} {y : Except SketchError β}
    (found : ∃ a b, x = .ok a ∧ y = .ok b ∧ T a b) : P.Gathers T (look x) (look y) := by
  obtain ⟨a, b, hx, hy, answers⟩ := found
  exact ⟨a, b, [], [], answers, Gather.adds_look hx, Gather.adds_look hy, .nil⟩

theorem Gathers.discard {x : Gather K α} {y : Gather K β} (both : P.Gathers T x y) :
    P.Fills (discard x) (discard y) := by
  obtain ⟨a, b, ps, qs, -, hx, hy, places⟩ := both
  exact ⟨(), (), ps, qs, trivial, hx.discard, hy.discard, places⟩

theorem fills_hold (same : P.same h k) : P.Fills (hold h) (hold k) :=
  ⟨(), (), _, _, trivial, Gather.adds_hold h, Gather.adds_hold k, .cons (.held same) .nil⟩

/-- New parameters have no handles yet: their names, their bounds and, where values count, their
starts are compared. -/
theorem fills_bring {p q : Param K} (name : p.name = q.name) (bounds : p.bounds = q.bounds)
    (value : P.valued → p.value = q.value) : P.Fills (bring p) (bring q) :=
  ⟨(), (), _, _, trivial, Gather.adds_bring p, Gather.adds_bring q,
    .cons (.fresh name bounds value) .nil⟩

/-- A visit gathers what objects list, and that goes together place by place. -/
theorem fills_visit (like : P.Objects a b) : P.Fills (visit P.left a) (visit P.right b) := by
  obtain ⟨hs, ks, params, params', same⟩ := like.params
  refine ⟨(), (), _, _, trivial, Gather.adds_visit params, Gather.adds_visit params', ?_⟩
  rw [List.forall₂_map_left_iff, List.forall₂_map_right_iff]
  exact same.imp fun _ _ => .held

theorem fills_point (of : P.Of (.only .point) a b) :
    P.Fills (discard (look (P.left.point a))) (discard (look (P.right.point b))) := by
  obtain ⟨p, q, hp, hq, -⟩ := of.point
  exact (gathers_look (T := fun _ _ => True) ⟨p, q, hp, hq, trivial⟩).discard

/-- Where a new parameter starts may depend on a position, so positions are compared as values
are. -/
theorem gathers_position (like : P.Points a b) :
    P.Gathers (fun v w => P.valued → v = w) (look (P.left.position a))
      (look (P.right.position b)) := by
  obtain ⟨p, q, hp, hq, x, y⟩ := like
  refine gathers_look ⟨_, _, Sketch.position_of_point hp, Sketch.position_of_point hq, fun v => ?_⟩
  rw [P.values v _ _ x, P.values v _ _ y]

theorem gathers_segment (of : P.Of (.only .segment) a b) :
    P.Gathers P.Segments (look (P.left.segment a)) (look (P.right.segment b)) :=
  gathers_look of.segment

theorem gathers_round (of : P.Of .round a b) :
    P.Gathers P.Rounds (look (P.left.round a)) (look (P.right.round b)) :=
  gathers_look of.round

theorem gathers_arc (of : P.Of (.only .arc) a b) :
    P.Gathers (fun x x' => P.Rounds ⟨x.c, x.r⟩ ⟨x'.c, x'.r⟩) (look (P.left.arc a))
      (look (P.right.arc b)) :=
  gathers_look of.arc

theorem fills_visitLine (of : P.Of (.only .segment) a b) :
    P.Fills (Gather.visitLine P.left a) (Gather.visitLine P.right b) := by
  refine (gathers_segment of).bind fun g g' ends => ?_
  exact (fills_hold ends.ang).next (fills_visit ends.a.objects)

theorem fills_visitRound {r r' : Round} (like : P.Rounds r r') :
    P.Fills (Gather.visitRound P.left r) (Gather.visitRound P.right r') :=
  (fills_visit like.c.objects).next (fills_hold like.r)

theorem fills_bringCurveParam (o : Options K) (name : String) :
    P.Fills (Gather.bringCurveParam o name) (Gather.bringCurveParam o name) :=
  fills_bring rfl rfl fun _ => rfl

end Steps

section Kinds

open Kind

variable {a a' b b' : ObjectId} (o : Options K)

theorem fills_twoPoints (p : P.Of (.only .point) a b) (q : P.Of (.only .point) a' b') :
    P.Fills (twoPoints P.left a a') (twoPoints P.right b b') := by
  refine (fills_point p).next ((fills_point q).next ?_)
  exact (fills_visit p.toObjects).next (fills_visit q.toObjects)

theorem gathers_aroundMiddle (p : P.Of (.only .point) a b) (l : P.Of (.only .segment) a' b') :
    P.Gathers P.Segments (aroundMiddle P.left a a') (aroundMiddle P.right b b') := by
  refine (gathers_segment l).bind fun g g' ends => (fills_point p).next ?_
  refine (fills_visit ends.a.objects).next ((fills_visit p.toObjects).next ?_)
  exact (fills_visit ends.b.objects).next (gathers_pure ends)

theorem fills_twoAngles (l : P.Of (.only .segment) a b) (l' : P.Of (.only .segment) a' b') :
    P.Fills (twoAngles P.left a a') (twoAngles P.right b b') := by
  refine (gathers_segment l).bind fun g g' ends => (gathers_segment l').bind fun m m' ends' => ?_
  exact (fills_hold ends.ang).next (fills_hold ends'.ang)

/-- One parameter of a segment. -/
theorem fills_ofSegment (l : P.Of (.only .segment) a b) (part : Segment → Handle)
    (same : ∀ g g', P.Segments g g' → P.same (part g) (part g')) :
    P.Fills (look (P.left.segment a) >>= fun g => hold (part g))
      (look (P.right.segment b) >>= fun g => hold (part g)) :=
  (gathers_segment l).bind fun g g' ends => fills_hold (same g g' ends)

theorem fills_tangentToCurve (l : P.Of (.only .segment) a b) (c : P.Of (.only .bezier) a' b') :
    P.Fills (tangentToCurve P.left o a a') (tangentToCurve P.right o b b') := by
  refine (gathers_segment l).bind fun g g' ends => ?_
  refine (gathers_look c.bezier).bind fun x x' controls => ?_
  refine (gathers_position controls.p0).bind fun p0 q0 h0 => ?_
  refine (gathers_position controls.p1).bind fun p1 q1 h1 => ?_
  refine (gathers_position controls.p2).bind fun p2 q2 h2 => ?_
  refine (gathers_position controls.p3).bind fun p3 q3 h3 => ?_
  have touching (v : P.valued) : curvePoint p0 p1 p2 p3 o.curve.initial =
      curvePoint q0 q1 q2 q3 o.curve.initial := by rw [h0 v, h1 v, h2 v, h3 v]
  have tangent (v : P.valued) : curveTangent p0 p1 p2 p3 o.curve.initial =
      curveTangent q0 q1 q2 q3 o.curve.initial := by rw [h0 v, h1 v, h2 v, h3 v]
  refine (fills_visit c.toObjects).next ((fills_bringCurveParam o "t").next ?_)
  refine Fills.next (fills_bring rfl rfl fun v => congrArg Vec.x (touching v)) ?_
  refine Fills.next (fills_bring rfl rfl fun v => congrArg Vec.y (touching v)) ?_
  refine Fills.next (fills_bring rfl rfl fun v => congrArg Vec.x (tangent v)) ?_
  refine Fills.next (fills_bring rfl rfl fun v => congrArg Vec.y (tangent v)) ?_
  exact (fills_hold ends.ang).next (fills_visit ends.a.objects)

theorem fills_onEllipse (p : P.Of (.only .point) a b) (e : P.Of (.only .ellipse) a' b') :
    P.Fills (onEllipse P.left a a') (onEllipse P.right b b') := by
  refine (gathers_look e.ellipse).bind fun x x' axis => ?_
  refine (gathers_position axis.ep1).bind fun p1 q1 h1 => ?_
  refine (gathers_position axis.ep2).bind fun p2 q2 h2 => ?_
  refine (gathers_position p.point).bind fun p3 q3 h3 => ?_
  refine (fills_visit e.toObjects).next ?_
  refine Fills.next (fills_bring rfl rfl fun v => ?_) ?_
  · simp only [h1 v, h2 v, h3 v, P.values v _ _ axis.r]
  refine Fills.next (fills_bring rfl rfl fun v => ?_) ?_
  · simp only [h1 v, h2 v]
  refine Fills.next (fills_bring rfl rfl fun v => ?_) ?_
  · simp only [h1 v, h2 v]
  exact fills_visit p.toObjects

/-- The scopes of a kind over objects that go together. -/
theorem fills_gather {k : Kind} (hk : k.isModifier = false) {as bs : List ObjectId}
    (fits : P.left.Fits k.signature as) (like : List.Forall₂ P.Objects as bs) :
    P.Fills (k.gather P.left o as) (k.gather P.right o bs) := by
  cases k with
  | pCoincident | distancePP =>
    obtain ⟨_, _, _, _, rfl, rfl, p, q⟩ := two like fits
    exact fills_twoPoints p q
  | pointOnLine =>
    obtain ⟨_, _, _, _, rfl, rfl, p, l⟩ := two like fits
    refine (gathers_segment l).bind fun g g' ends => (fills_point p).next ?_
    refine (fills_visit p.toObjects).next ((fills_visit ends.a.objects).next ?_)
    exact fills_hold ends.ang
  | pointOnCircle =>
    obtain ⟨_, _, _, _, rfl, rfl, p, c⟩ := two like fits
    refine (gathers_round c).bind fun r r' round => (fills_point p).next ?_
    exact (fills_visit p.toObjects).next (fills_visitRound round)
  | pointInMiddle =>
    obtain ⟨_, _, _, _, rfl, rfl, p, l⟩ := two like fits
    exact (gathers_aroundMiddle p l).discard
  | symmetry =>
    obtain ⟨_, _, _, _, rfl, rfl, p, l⟩ := two like fits
    exact (gathers_aroundMiddle p l).bind fun g g' ends => fills_hold ends.ang
  | distancePL =>
    obtain ⟨_, _, _, _, rfl, rfl, p, l⟩ := two like fits
    refine (gathers_segment l).bind fun g g' ends => (fills_point p).next ?_
    refine (fills_visit p.toObjects).next ((fills_hold ends.ang).next ?_)
    exact fills_visit ends.a.objects
  | lockPoint =>
    obtain ⟨_, _, rfl, rfl, p⟩ := one like fits
    exact (fills_point p).next (fills_visit p.toObjects)
  | tangentLC =>
    obtain ⟨_, _, _, _, rfl, rfl, l, c⟩ := two like fits
    refine (gathers_round c).bind fun r r' round => ?_
    exact (fills_visitLine l).next (fills_visitRound round)
  | fillet =>
    obtain ⟨_, _, _, _, _, _, rfl, rfl, l, l', c⟩ := three like fits
    refine (gathers_arc c).bind fun x x' round => ?_
    exact (fills_visitLine l).next ((fills_visitLine l').next (fills_visitRound round))
  | pointOnBezier =>
    obtain ⟨_, _, _, _, rfl, rfl, p, c⟩ := two like fits
    refine (fills_point p).next ((gathers_look c.bezier).discard.next ?_)
    refine (fills_visit c.toObjects).next ((fills_bringCurveParam o "t").next ?_)
    exact fills_visit p.toObjects
  | tangentLineBezier =>
    obtain ⟨_, _, _, _, rfl, rfl, l, c⟩ := two like fits
    exact fills_tangentToCurve o l c
  | pointOnEllipse =>
    obtain ⟨_, _, _, _, rfl, rfl, p, e⟩ := two like fits
    exact fills_onEllipse p e
  | angle | vertical | horizontal =>
    obtain ⟨_, _, rfl, rfl, l⟩ := one like fits
    exact fills_ofSegment l Segment.ang fun _ _ ends => ends.ang
  | segmentLength =>
    obtain ⟨_, _, rfl, rfl, l⟩ := one like fits
    exact fills_ofSegment l Segment.t fun _ _ ends => ends.t
  | angleBetween | perpendicular | parallel =>
    obtain ⟨_, _, _, _, rfl, rfl, l, l'⟩ := two like fits
    exact fills_twoAngles l l'
  | radiusLength =>
    obtain ⟨_, _, rfl, rfl, c⟩ := one like fits
    exact (gathers_round c).bind fun r r' round => fills_hold round.r
  | equalRadius =>
    obtain ⟨_, _, _, _, rfl, rfl, c, d⟩ := two like fits
    refine (gathers_round c).bind fun r r' first => (gathers_round d).bind fun m m' second => ?_
    exact (fills_hold first.r).next (fills_hold second.r)
  | equalLength =>
    obtain ⟨_, _, _, _, rfl, rfl, l, l'⟩ := two like fits
    refine (gathers_segment l).bind fun g g' first => ?_
    refine (gathers_segment l').bind fun m m' second => ?_
    exact (fills_hold first.t).next (fills_hold second.t)
  | polar =>
    obtain ⟨_, _, _, _, _, _, rfl, rfl, l, p, q⟩ := three like fits
    refine (gathers_segment l).bind fun g g' ends => (fills_point p).next ((fills_point q).next ?_)
    refine (fills_hold ends.ang).next ((fills_hold ends.t).next ?_)
    exact (fills_visit p.toObjects).next (fills_visit q.toObjects)
  | segmentConsistency =>
    obtain ⟨_, _, rfl, rfl, l⟩ := one like fits
    refine (gathers_segment l).bind fun g g' ends => ?_
    refine (fills_hold ends.ang).next ((fills_hold ends.t).next ?_)
    exact (fills_visit ends.a.objects).next (fills_visit ends.b.objects)
  | arcConsistency =>
    obtain ⟨_, _, rfl, rfl, c⟩ := one like fits
    exact (gathers_arc c).discard.next (fills_visit c.toObjects)
  | mirror => cases hk

end Kinds

section Kept

variable {s u : Sketch K} (o : s.Ordered) (o' : u.Ordered)

/-- The parameters of objects, each with itself, in two sketches that may hold other values. -/
def kept : Pairing K where
  left := s
  right := u
  leftOrdered := o
  rightOrdered := o'
  same h k := k = h ∧ h ∈ s.fields
  valued := False
  values := False.elim

/-- Objects that stay go together with themselves, whatever became of their values. -/
theorem objects_kept (keeps : s.Keeps u) {cs : List ShapeClass} {ids : List ObjectId}
    (fits : s.Fits cs ids) : List.Forall₂ (kept o o').Objects ids ids := by
  induction fits with
  | nil => exact .nil
  | cons isA _ ih =>
    refine .cons ?_ ih
    obtain ⟨e, he, -⟩ := isA
    obtain ⟨hs, listed, -⟩ := o.exists_listed he
    have kind : s.IsA (.only e.shape.kind) _ := ⟨e, he, beq_self_eq_true _⟩
    refine ⟨⟨e.shape.kind, Sketch.kind_eq_ok_iff.mpr kind,
      Sketch.kind_eq_ok_iff.mpr (keeps.isA kind)⟩, hs, hs, listed, keeps.objectParams listed, ?_⟩
    exact List.forall₂_same.mpr fun h hh => ⟨rfl, Sketch.field_of_listed listed h hh⟩

end Kept

end Pairing

end Drafting
