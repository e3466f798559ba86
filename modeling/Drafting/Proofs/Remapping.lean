import Drafting.Proofs.Renaming
import Drafting.Proofs.Rereading

namespace Drafting

variable {K : Type} [Scalar K]

namespace Sketch

/-- Two objects of one kind, which list the same values in the same order. -/
structure Alike (s t : Sketch K) (a b : ObjectId) : Prop where
  kind : ∃ k, s.kind a = .ok k ∧ t.kind b = .ok k
  values : ∃ hs ks, s.objectParams a = .ok hs ∧ t.objectParams b = .ok ks ∧
    hs.map s.value = ks.map t.value

variable {s t : Sketch K} {a b : ObjectId} {as bs : List ObjectId} {cs : List ShapeClass}

theorem Alike.isA {c : ShapeClass} (alike : s.Alike t a b) (h : s.IsA c a) : t.IsA c b := by
  obtain ⟨k, hk, hk'⟩ := alike.kind
  obtain ⟨e, he, admits⟩ := h
  obtain ⟨d, hd, kind⟩ := kind_eq_ok_iff.mp hk
  obtain ⟨e', he', kind'⟩ := kind_eq_ok_iff.mp hk'
  obtain rfl := Option.some.inj (he.symm.trans hd)
  refine ⟨e', he', ?_⟩
  rwa [(eq_of_beq kind').trans (eq_of_beq kind).symm]

/-- Objects that are alike fit the same signatures. -/
theorem Fits.alike (fits : s.Fits cs as) (alike : List.Forall₂ (s.Alike t) as bs) :
    t.Fits cs bs := by
  induction fits generalizing bs with
  | nil =>
    cases alike
    exact .nil
  | cons isA _ ih =>
    cases alike with
    | cons one others => exact .cons (one.isA isA) (ih others)

/-- Two well-formed sketches, with live parameters of the one paired with those of the other that
have the same value. -/
def pairing (w : s.WellFormed) (w' : t.WellFormed) : Pairing K where
  left := s.numbered
  right := t.numbered
  leftOrdered := ⟨w.rising, w.numbered, w.children⟩
  rightOrdered := ⟨w'.rising, w'.numbered, w'.children⟩
  same h k := (s.param? h).isSome ∧ (t.param? k).isSome ∧ s.value h = t.value k
  valued := True
  values _ _ _ same := same.2.2

theorem Alike.objects (alike : s.Alike t a b) (w : s.WellFormed) (w' : t.WellFormed) :
    (pairing w w').Objects a b := by
  obtain ⟨kind, hs, ks, params, params', values⟩ := alike
  refine ⟨kind, hs, ks, params, params', ?_⟩
  have same : List.Forall₂ (fun h k => s.value h = t.value k) hs ks := by
    rwa [← List.forall₂_eq_eq_eq, List.forall₂_map_left_iff, List.forall₂_map_right_iff] at values
  rw [List.forall₂_iff_zip] at same ⊢
  refine ⟨same.1, fun pair => ?_⟩
  obtain ⟨hh, hk⟩ := List.of_mem_zip pair
  exact ⟨w.live_of_listed params _ hh, w'.live_of_listed params' _ hk, same.2 pair⟩

end Sketch

namespace Constraint

variable {s t u v : Sketch K} {c d : Constraint K} {k : Kind} {r : Record K}
  {as bs : List ObjectId} {index : ObjectId → Option ObjectId}

omit [Scalar K] in
theorem outcome_lookUp (found : List.Forall₂ (fun a b => index a = some b) as bs) :
    outcome (as.mapM fun id => (match index id with
      | some live => pure live
      | none => throw (.notIndexed id) : Sketch.Edit K ConstraintError ObjectId)) s =
        (.ok bs, s) := by
  induction found with
  | nil => rfl
  | @cons a b as bs one _ ih =>
    rw [List.mapM_cons, one, outcome_bind_ok (outcome_pure b s)]
    exact (outcome_bind_ok ih _).trans rfl

/-- A record is read by making its kind of the objects that its own are mapped to. -/
theorem readVia_of_make (found : List.Forall₂ (fun a b => index a = some b) r.objects bs)
    (kind : Kind.ofId? r.typeId = some k)
    (made : outcome (make k bs r.constants .standard) s = (.ok c, t)) :
    outcome (readVia index r) s = (.ok c, t) := by
  unfold readVia
  refine (outcome_bind_ok (outcome_lookUp found) _).trans ?_
  rw [kind]
  exact made

/-- The second constraint has in its sketch what the first one has in its own: constants, values of
residuals and the parameters it brought along. -/
structure Resembles [Written K] (c : Constraint K) (t : Sketch K) (d : Constraint K)
    (v : Sketch K) : Prop where
  kind : d.kind = c.kind
  constants : d.constants = c.constants
  residualValues : ∃ xs, c.residualValues t = .ok xs ∧ d.residualValues v = .ok xs
  auxiliary : List.Forall₂ (fun h k => ∃ p, t.param? h = some p ∧ v.param? k = some p)
    c.auxiliary d.auxiliary

/-- Constraints of one kind over objects that are alike. -/
theorem resembles_of_make [Written K] {constants : Table (Constant.Raw K)} {o : Options K}
    (residual : k.isModifier = false) (w : s.WellFormed) (w' : u.WellFormed)
    (alike : List.Forall₂ (s.Alike u) as bs)
    (made : outcome (make k as constants o) s = (.ok c, t))
    (made' : outcome (make k bs constants o) u = (.ok d, v)) : c.Resembles t d v := by
  have g := w.toOrdered.grounded
  have fits := (exists_make_iff constants o g residual).mp ⟨c, t, made⟩
  have formed := formed_make g made
  obtain ⟨kind, -, given, -⟩ := fields_make made
  obtain ⟨kind', -, given', -⟩ := fields_make made'
  obtain ⟨_, _, ps, qs, -, added, added', places⟩ :=
    Pairing.fills_gather (P := Sketch.pairing w w') o residual fits
      (alike.imp fun _ _ one => one.objects w w')
  obtain ⟨all, news⟩ := (realized_make residual added made).paired places
    (realized_make residual added' made')
  have params : List.Forall₂ (fun h k => ∃ p, t.param? h = some p ∧ v.param? k = some p)
      c.auxiliary d.auxiliary := by
    refine news.imp fun h k ⟨⟨x, _, _⟩, ⟨y, _, _⟩, hp, hq, name, bounds, value⟩ => ?_
    obtain rfl : x = y := value trivial
    cases name
    cases bounds
    exact ⟨_, hp, hq⟩
  have values : c.params.map t.value = d.params.map v.value := by
    rw [← List.forall₂_eq_eq_eq, List.forall₂_map_left_iff, List.forall₂_map_right_iff]
    refine all.imp fun h k pair => ?_
    rcases pair with ⟨live, live', same⟩ | new
    · rw [(Makes.given constants o made).value live, (Makes.given constants o made').value live',
        same]
    · obtain ⟨p, hp, hq⟩ := (List.forall₂_iff_zip.mp params).2 new
      rw [Sketch.value_of_param? hp, Sketch.value_of_param? hq]
  refine ⟨kind'.trans kind.symm, given'.trans given.symm, ?_, params⟩
  obtain ⟨xs, ys, hx, hy, same⟩ := Kind.exists_residuals formed.params values c.resolved
  have resolved : d.resolved = c.resolved := by
    rw [Constraint.resolved, Constraint.resolved, kind, kind', given, given']
  refine ⟨xs.map (·.evaluate t.value), residualValues_eq ⟨rfl, rfl⟩ hx, ?_⟩
  rw [same]
  exact residualValues_eq ⟨kind'.trans kind.symm, rfl⟩ (resolved ▸ hy)

omit [Scalar K] in
theorem exists_forall₂ {α β : Type} {R : α → β → Prop} {as : List α} (h : ∀ a ∈ as, ∃ b, R a b) :
    ∃ bs, List.Forall₂ R as bs := by
  induction as with
  | nil => exact ⟨[], .nil⟩
  | cons a as ih =>
    obtain ⟨one, others⟩ := List.forall_mem_cons.mp h
    obtain ⟨b, hb⟩ := one
    obtain ⟨bs, hbs⟩ := ih others
    exact ⟨b :: bs, .cons hb hbs⟩

/-- A record that is read of one sketch is read of another as well, with its objects mapped to
objects that are alike. The constraint has there what it has here: the same constants, residuals
with the same values, and parameters of its own that start alike, within the same bounds. -/
theorem readVia_resembles [Written K] (w : s.WellFormed) (w' : u.WellFormed)
    (h : outcome (read r) s = (.ok c, t)) (residual : c.kind.isModifier = false)
    (mapped : ∀ a ∈ r.objects, ∃ b, index a = some b ∧ s.Alike u a b) :
    ∃ d v, outcome (readVia index r) u = (.ok d, v) ∧ d.Installs u v ∧ c.Resembles t d v := by
  obtain ⟨-, k, kind, made⟩ := read_eq_ok.mp h
  obtain ⟨rfl, -⟩ := fields_make made
  obtain ⟨bs, images⟩ := exists_forall₂ mapped
  have alike : List.Forall₂ (s.Alike u) r.objects bs := images.imp fun _ _ => And.right
  have fits := (exists_make_iff _ _ w.toOrdered.grounded residual).mp ⟨c, t, made⟩
  obtain ⟨d, v, made'⟩ :=
    (exists_make_iff r.constants .standard w'.toOrdered.grounded residual).mpr (fits.alike alike)
  exact ⟨d, v, readVia_of_make (images.imp fun _ _ => And.left) kind made',
    (leaves_make c.kind bs r.constants .standard u).installs made',
    resembles_of_make residual w w' alike made made'⟩

def curveOnly : Board Float :=
  [.addBezier ⟨0, 0⟩ ⟨1, 2⟩ ⟨3, 2⟩ ⟨4, 0⟩].foldl Act.run .empty

/-- A curve after a point, and before another that lies where it starts. -/
def curveAmongPoints : Board Float :=
  [.addPoint ⟨9, 9⟩, .addBezier ⟨0, 0⟩ ⟨1, 2⟩ ⟨3, 2⟩ ⟨4, 0⟩, .addPoint ⟨0, 0⟩].foldl Act.run .empty

/-- The curve's first point is mapped to the point that lies there. -/
def unshared (a : ObjectId) : Option ObjectId := if a = ⟨1⟩ then some ⟨7⟩ else some ⟨6⟩

/-- The curve's first point on the curve, and in the other sketch the other point. -/
theorem readVia_resembles_unshared : curveOnly.sketch.WellFormed ∧
    curveAmongPoints.sketch.WellFormed ∧
    ∃ c t, outcome (read ⟨"PointOnBezier", [⟨1⟩, ⟨5⟩], .empty⟩) curveOnly.sketch = (.ok c, t) ∧
      c.kind.isModifier = false ∧
      ∃ d v, outcome (readVia unshared ⟨"PointOnBezier", [⟨1⟩, ⟨5⟩], .empty⟩)
          curveAmongPoints.sketch = (.ok d, v) ∧ c.Resembles t d v := by
  have w : curveOnly.sketch.WellFormed := by
    refine Board.wellFormed_foldl fun act hact b => ?_
    rw [List.mem_singleton.mp hact]
    trivial
  have w' : curveAmongPoints.sketch.WellFormed := by
    refine Board.wellFormed_foldl fun act hact b => ?_
    simp only [List.mem_cons, List.not_mem_nil, or_false] at hact
    rcases hact with rfl | rfl | rfl <;> trivial
  have start : curveOnly.sketch.Alike curveAmongPoints.sketch ⟨1⟩ ⟨7⟩ :=
    ⟨⟨.point, by decide +kernel, by decide +kernel⟩, [⟨1, 1⟩, ⟨2, 1⟩], [⟨11, 1⟩, ⟨12, 1⟩],
      by decide +kernel, by decide +kernel, rfl⟩
  have curve : curveOnly.sketch.Alike curveAmongPoints.sketch ⟨5⟩ ⟨6⟩ :=
    ⟨⟨.bezier, by decide +kernel, by decide +kernel⟩,
      [⟨1, 1⟩, ⟨2, 1⟩, ⟨7, 1⟩, ⟨8, 1⟩, ⟨3, 1⟩, ⟨4, 1⟩, ⟨5, 1⟩, ⟨6, 1⟩],
      [⟨3, 1⟩, ⟨4, 1⟩, ⟨9, 1⟩, ⟨10, 1⟩, ⟨5, 1⟩, ⟨6, 1⟩, ⟨7, 1⟩, ⟨8, 1⟩],
      by decide +kernel, by decide +kernel, rfl⟩
  obtain ⟨c, t, h, kind⟩ := exists_read (s := curveOnly.sketch) (k := .pointOnBezier)
    (r := ⟨"PointOnBezier", [⟨1⟩, ⟨5⟩], .empty⟩) (by decide +kernel)
  have residual : c.kind.isModifier = false := by rw [kind]; rfl
  have mapped : ∀ a ∈ ([⟨1⟩, ⟨5⟩] : List ObjectId), ∃ b, unshared a = some b ∧
      curveOnly.sketch.Alike curveAmongPoints.sketch a b := by
    intro a ha
    rcases List.mem_pair.mp ha with rfl | rfl
    · exact ⟨_, rfl, start⟩
    · exact ⟨_, rfl, curve⟩
  obtain ⟨d, v, h', -, resembles⟩ := readVia_resembles w w' h residual mapped
  exact ⟨w, w', c, t, h, residual, d, v, h', resembles⟩

end Constraint

end Drafting
