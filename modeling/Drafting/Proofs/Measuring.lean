import Drafting.Kind.Measure
import Drafting.Proofs.Signature

namespace Drafting

open Constant (Definition Form Raw Value)

variable {K : Type} [Scalar K]

omit [Scalar K] in
def Constant.Value.form : Value K → Form
  | .number _ => .number
  | .flag _ => .flag

omit [Scalar K] in
def Constant.Definition.Names (d : Definition) (v : String × Value K) : Prop :=
  v.1 = d.name ∧ v.2.form = d.form

omit [Scalar K] in
theorem map_eq_of_forall₂ {α β γ : Type} {R : α → β → Prop} {f : α → γ} {f' : β → γ}
    {as : List α} {bs : List β} (h : List.Forall₂ R as bs) (same : ∀ a b, R a b → f' b = f a) :
    bs.map f' = as.map f := by
  induction h with
  | nil => rfl
  | cons first _ ih => rw [List.map_cons, List.map_cons, same _ _ first, ih]

/-- Each kind lists its definitions in the order of their names, and no name twice. -/
theorem Kind.names_rising (k : Kind) : (k.definitions.map (·.name)).Pairwise (· < ·) := by
  cases k <;> decide

omit [Scalar K] in
/-- What is measured for the definitions of a kind is in the order of its names. -/
theorem Kind.sorted_of_names {α : Type} {k : Kind} {values : List (String × Value K)}
    (names : List.Forall₂ Definition.Names k.definitions values) (f : Value K → α) :
    (values.map fun v => (v.1, f v.2)).Pairwise fun a b => a.1 < b.1 := by
  have same : values.map Prod.fst = k.definitions.map (·.name) :=
    map_eq_of_forall₂ names fun _ _ h => h.1
  have rising := k.names_rising
  rw [← same] at rising
  exact List.pairwise_map.mpr (List.pairwise_map.mp rising)

omit [Scalar K] in
/-- So a table of measured constants has each of them under its name. -/
theorem Kind.get?_of_names {α : Type} {k : Kind} {values : List (String × Value K)}
    (names : List.Forall₂ Definition.Names k.definitions values) (f : Value K → α)
    {v : String × Value K} (hv : v ∈ values) :
    (Table.ofList (values.map fun v => (v.1, f v.2))).get? v.1 = some (f v.2) := by
  apply Table.get?_of_mem
  rw [Table.entries_ofList (sorted_of_names names f)]
  exact List.mem_map_of_mem hv

namespace Sketch

variable {s : Sketch K} {a b c : ObjectId} (g : s.Grounded)

include g

theorem Grounded.line (h : s.IsA (.only .segment) a) : ∃ l, s.line a = .ok l := by
  obtain ⟨l, hl⟩ := exists_segment.mpr h
  obtain ⟨v, hv⟩ := exists_position.mpr (g.segment hl).1
  exact ⟨_, bind_eq_ok.mpr ⟨l, hl, bind_eq_ok.mpr ⟨v, hv, rfl⟩⟩⟩

omit g in
theorem exists_angleDegrees (h : s.IsA (.only .segment) a) : ∃ x, s.angleDegrees a = .ok x := by
  obtain ⟨l, hl⟩ := exists_segment.mpr h
  exact ⟨_, bind_eq_ok.mpr ⟨l, hl, rfl⟩⟩

theorem Grounded.length (h : s.IsA (.only .segment) a) : ∃ x, s.length a = .ok x := by
  obtain ⟨l, hl⟩ := exists_segment.mpr h
  obtain ⟨v, hv⟩ := exists_position.mpr (g.segment hl).1
  obtain ⟨w, hw⟩ := exists_position.mpr (g.segment hl).2
  exact ⟨_, bind_eq_ok.mpr ⟨l, hl, bind_eq_ok.mpr ⟨w, hw, bind_eq_ok.mpr ⟨v, hv, rfl⟩⟩⟩⟩

end Sketch

namespace Kind

open Sketch (exists_angleDegrees)

variable {s : Sketch K} {a b c : ObjectId}

theorem exists_offLine (g : s.Grounded) (ha : s.IsA (.only .point) a)
    (hb : s.IsA (.only .segment) b) : ∃ x, offLine s a b = .ok x := by
  obtain ⟨v, hv⟩ := Sketch.exists_position.mpr ha
  obtain ⟨l, hl⟩ := g.line hb
  exact ⟨_, bind_eq_ok.mpr ⟨v, hv, bind_eq_ok.mpr ⟨l, hl, rfl⟩⟩⟩

theorem exists_centerBelow (g : s.Grounded) (ha : s.IsA (.only .segment) a)
    (hb : s.IsA .round b) : ∃ x, centerBelow s a b = .ok x := by
  obtain ⟨r, hr⟩ := Sketch.exists_round.mpr hb
  obtain ⟨v, hv⟩ := Sketch.exists_position.mpr (g.round hr)
  obtain ⟨l, hl⟩ := g.line ha
  exact ⟨_, bind_eq_ok.mpr ⟨r, hr, bind_eq_ok.mpr ⟨v, hv, bind_eq_ok.mpr ⟨l, hl, rfl⟩⟩⟩⟩

theorem exists_relativeAngle (ha : s.IsA (.only .segment) a) (hb : s.IsA (.only .segment) b) :
    ∃ x, relativeAngle s a b = .ok x := by
  obtain ⟨l, hl⟩ := Sketch.exists_segment.mpr ha
  obtain ⟨l', hl'⟩ := Sketch.exists_segment.mpr hb
  exact ⟨_, bind_eq_ok.mpr ⟨l, hl, bind_eq_ok.mpr ⟨l', hl', rfl⟩⟩⟩

theorem exists_pointDistance (ha : s.IsA (.only .point) a) (hb : s.IsA (.only .point) b) :
    ∃ x, pointDistance s a b = .ok x := by
  obtain ⟨v, hv⟩ := Sketch.exists_position.mpr ha
  obtain ⟨w, hw⟩ := Sketch.exists_position.mpr hb
  exact ⟨_, bind_eq_ok.mpr ⟨v, hv, bind_eq_ok.mpr ⟨w, hw, rfl⟩⟩⟩

section Measured

variable {values : List (String × Value K)}

omit [Scalar K] in
theorem form_of_flag {x : Except SketchError Bool} {v : Value K} (h : flag x = .ok v) :
    v.form = .flag := by
  cases x with
  | error e => cases h
  | ok b =>
    cases h
    rfl

omit [Scalar K] in
theorem exists_of_number {name : String} {x : Except SketchError K}
    (h : one name (number x) = .ok values) : ∃ y, values = [(name, .number y)] := by
  cases x with
  | error e => cases h
  | ok y => exact ⟨y, (Except.ok.inj h).symm⟩

omit [Scalar K] in
theorem exists_of_flag {name : String} {x : Except SketchError Bool}
    (h : one name (flag x) = .ok values) : ∃ b, values = [(name, .flag b)] := by
  cases x with
  | error e => cases h
  | ok b => exact ⟨b, (Except.ok.inj h).symm⟩

/-- Where constants are measured, they are those that the kind defines. -/
theorem names_of_measured {k : Kind} {objects : List ObjectId}
    (h : k.measured? s objects = some (.ok values)) :
    List.Forall₂ Definition.Names k.definitions values := by
  unfold measured? at h
  split at h
  case h_14 => cases h
  all_goals replace h := Option.some.inj h
  case h_1 =>
    obtain ⟨b, rfl⟩ := exists_of_flag h
    exact .cons ⟨rfl, rfl⟩ .nil
  case h_2 l₁ l₂ arc =>
    obtain ⟨v, first, h⟩ := bind_eq_ok.mp h
    obtain ⟨w, second, h⟩ := bind_eq_ok.mp h
    cases h
    exact .cons ⟨rfl, form_of_flag first⟩ (.cons ⟨rfl, form_of_flag second⟩ .nil)
  case h_4 =>
    obtain ⟨d, -, h⟩ := bind_eq_ok.mp h
    cases h
    exact .cons ⟨rfl, rfl⟩ (.cons ⟨rfl, rfl⟩ .nil)
  case h_5 =>
    obtain ⟨p, -, h⟩ := bind_eq_ok.mp h
    cases h
    exact .cons ⟨rfl, rfl⟩ (.cons ⟨rfl, rfl⟩ .nil)
  all_goals
    obtain ⟨y, rfl⟩ := exists_of_number h
    exact .cons ⟨rfl, rfl⟩ .nil

theorem names_of_measure {k : Kind} {objects : List ObjectId}
    (h : k.measure s objects = .ok values) :
    List.Forall₂ Definition.Names k.definitions values := by
  unfold measure at h
  split at h
  · rename_i none
    cases h
    rw [List.isEmpty_iff.mp none]
    exact .nil
  · split at h
    · rename_i answer measured
      rw [mapError_eq_ok.mp h] at measured
      exact names_of_measured measured
    · cases h

theorem of_measured {k : Kind} {objects : List ObjectId}
    (h : k.measured? s objects = some (.ok values)) :
    ∃ values, k.measure s objects = .ok values ∧
      List.Forall₂ Definition.Names k.definitions values := by
  have answer : ∃ values, k.measure s objects = .ok values := by
    unfold measure
    split
    · exact ⟨[], rfl⟩
    · rw [h]
      exact ⟨values, rfl⟩
  obtain ⟨values, measured⟩ := answer
  exact ⟨values, measured, names_of_measure measured⟩

end Measured

/-- All constants of a kind that has some are those that are measured one by one. -/
theorem measure_of_measured {k : Kind} {objects : List ObjectId} {values : List (String × Value K)}
    (known : k.definitions.isEmpty = false) (h : k.measured? s objects = some (.ok values)) :
    k.measure s objects = .ok values := by
  rw [measure, if_neg (by simp [known]), h]
  rfl

theorem measured_tangentLC {f : Bool} (below : centerBelow s a b = .ok f) :
    Kind.tangentLC.measured? s [a, b] = some (.ok [("inverted", .flag f)]) := by
  rw [measured?, below]
  rfl

theorem measured_fillet {f₁ f₂ : Bool} (below₁ : centerBelow s a c = .ok f₁)
    (below₂ : centerBelow s b c = .ok f₂) : Kind.fillet.measured? s [a, b, c] =
      some (.ok [("inverted1", .flag f₁), ("inverted2", .flag f₂)]) := by
  rw [measured?, below₁, below₂]
  rfl

/-- Over objects that fit, every constant of a kind is measured. -/
theorem exists_measure (g : s.Grounded) {k : Kind} {objects : List ObjectId}
    (fits : s.Fits k.signature objects) :
    ∃ values, k.measure s objects = .ok values ∧
      List.Forall₂ Definition.Names k.definitions values := by
  cases k with
  | tangentLC =>
    obtain ⟨a, b, rfl, ha, hb⟩ := Sketch.fits_two.mp fits
    obtain ⟨x, hx⟩ := exists_centerBelow g ha hb
    exact of_measured (measured_tangentLC hx)
  | fillet =>
    obtain ⟨a, b, c, rfl, ha, hb, hc⟩ := Sketch.fits_three.mp fits
    obtain ⟨x, hx⟩ := exists_centerBelow g ha hc.round
    obtain ⟨y, hy⟩ := exists_centerBelow g hb hc.round
    exact of_measured (measured_fillet hx hy)
  | distancePP =>
    obtain ⟨a, b, rfl, ha, hb⟩ := Sketch.fits_two.mp fits
    obtain ⟨x, hx⟩ := exists_pointDistance ha hb
    exact of_measured (by rw [measured?, hx]; rfl)
  | distancePL =>
    obtain ⟨a, b, rfl, ha, hb⟩ := Sketch.fits_two.mp fits
    obtain ⟨x, hx⟩ := exists_offLine g ha hb
    exact of_measured (by rw [measured?, hx]; rfl)
  | lockPoint =>
    obtain ⟨a, rfl, ha⟩ := Sketch.fits_one.mp fits
    obtain ⟨v, hv⟩ := Sketch.exists_position.mpr ha
    exact of_measured (by rw [measured?, hv]; rfl)
  | angle | vertical | horizontal =>
    obtain ⟨a, rfl, ha⟩ := Sketch.fits_one.mp fits
    obtain ⟨x, hx⟩ := exists_angleDegrees ha
    exact of_measured (by rw [measured?, hx]; rfl)
  | angleBetween | perpendicular | parallel =>
    obtain ⟨a, b, rfl, ha, hb⟩ := Sketch.fits_two.mp fits
    obtain ⟨x, hx⟩ := exists_relativeAngle ha hb
    exact of_measured (by rw [measured?, hx]; rfl)
  | segmentLength =>
    obtain ⟨a, rfl, ha⟩ := Sketch.fits_one.mp fits
    obtain ⟨x, hx⟩ := g.length ha
    exact of_measured (by rw [measured?, hx]; rfl)
  | radiusLength =>
    obtain ⟨a, rfl, ha⟩ := Sketch.fits_one.mp fits
    obtain ⟨r, hr⟩ := Sketch.exists_round.mpr ha
    exact of_measured (by rw [measured?, hr]; rfl)
  | _ => exact ⟨[], rfl, .nil⟩

end Kind

namespace Constant

variable [Written K]

/-- Whatever was given, a number is resolved to a number and a flag to a flag. -/
theorem Definition.form_resolve (d : Definition) (raw : Raw K) :
    (d.resolve raw).form = d.form := by
  cases h : d.form <;> simp [resolve, h, Value.form]

/-- A definition whose constant is given finds it as what it is defined to be. -/
theorem get?_resolve {defs : List Definition} (rising : (defs.map (·.name)).Pairwise (· < ·))
    {t : Table (Raw K)} {d : Definition} (hd : d ∈ defs) {raw : Raw K}
    (given : t.get? d.name = some raw) : (resolve defs t).get? d.name = some (d.resolve raw) := by
  induction defs with
  | nil => cases hd
  | cons e defs ih =>
    rw [List.map_cons, List.pairwise_cons] at rising
    by_cases same : e.name = d.name
    · have first : e = d := by
        rcases List.mem_cons.mp hd with rfl | hd
        · rfl
        · have less := rising.1 d.name (List.mem_map_of_mem hd)
          exact absurd (same ▸ less) (String.lt_irrefl d.name)
      subst first
      simp [resolve, Resolved.get?, given]
    · have rest : d ∈ defs := (List.mem_cons.mp hd).resolve_left fun h => same (h ▸ rfl)
      rw [← ih rising.2 rest]
      unfold resolve Resolved.get?
      rw [List.filterMap_cons]
      cases t.get? e.name with
      | none => rfl
      | some raw => rw [Option.map_some, List.find?_cons_of_neg (by simpa using same)]

namespace Resolved

variable {r : Resolved K} {name : String}

omit [Written K] in
theorem number_of_get? {x : K} (h : r.get? name = some (.number x)) : r.number name = x := by
  rw [number, h]

omit [Scalar K] [Written K] in
theorem flag_of_get? {b : Bool} (h : r.get? name = some (.flag b)) : r.flag name = b := by
  rw [flag, h]

end Resolved

/-- A number that is given is converted by its definition. -/
theorem number_resolve {defs : List Definition} (rising : (defs.map (·.name)).Pairwise (· < ·))
    {t : Table (Raw K)} {d : Definition} (hd : d ∈ defs) (form : d.form = .number) {raw : Raw K}
    (given : t.get? d.name = some raw) :
    (resolve defs t).number d.name = d.scale.convert raw.asNumber := by
  apply Resolved.number_of_get?
  rw [get?_resolve rising hd given, Definition.resolve, form]

theorem flag_resolve {defs : List Definition} (rising : (defs.map (·.name)).Pairwise (· < ·))
    {t : Table (Raw K)} {d : Definition} (hd : d ∈ defs) (form : d.form = .flag) {raw : Raw K}
    (given : t.get? d.name = some raw) : (resolve defs t).flag d.name = raw.asFlag := by
  apply Resolved.flag_of_get?
  rw [get?_resolve rising hd given, Definition.resolve, form]

end Constant

end Drafting
