import Drafting.Proofs.Measuring
import Drafting.Proofs.Remembering
import Drafting.Proofs.Transcribing

namespace Drafting

open Constant (Definition Raw Value)
open Json (Spelt)

namespace Table

variable {α : Type}

theorem put_of_mem {name : String} {value : α} {es : List (String × α)}
    (sorted : es.Pairwise fun a b => a.1 < b.1) (found : (name, value) ∈ es) :
    put name value es = es := by
  induction es with
  | nil => cases found
  | cons d ds ih =>
    obtain ⟨least, rest⟩ := List.pairwise_cons.mp sorted
    rcases List.mem_cons.mp found with rfl | later
    · rw [put, if_neg (String.lt_irrefl _), if_pos rfl]
    · have below : d.1 < name := least _ later
      have other : d.1 ≠ name := fun same => String.lt_irrefl name (same ▸ below)
      rw [put, if_neg (String.lt_asymm below), if_neg other, ih rest later]

theorem mem_of_get? {t : Table α} {name : String} {value : α} (h : t.get? name = some value) :
    (name, value) ∈ t.entries := by
  obtain ⟨e, found, rfl⟩ := Option.map_eq_some_iff.mp h
  have same : e.1 = name := by simpa using List.find?_some found
  exact same ▸ List.mem_of_find?_eq_some found

/-- A value that is there already can be put in again. -/
theorem insert_of_get? {t : Table α} {name : String} {value : α} (h : t.get? name = some value) :
    t.insert name value = t :=
  ext (put_of_mem t.sorted (mem_of_get? h))

def insertAll (t : Table α) (vs : List (String × α)) : Table α :=
  vs.foldl (fun t v => t.insert v.1 v.2) t

variable {vs : List (String × α)}

theorem get?_insertAll_of_not (t : Table α) {name : String} (others : ∀ v ∈ vs, v.1 ≠ name) :
    (t.insertAll vs).get? name = t.get? name := by
  induction vs generalizing t with
  | nil => rfl
  | cons v vs ih =>
    obtain ⟨first, rest⟩ := List.forall_mem_cons.mp others
    exact (ih (t.insert v.1 v.2) rest).trans (t.get?_insert_of_ne v.2 (Ne.symm first))

/-- Names that rise do not repeat, so that each value stays. -/
theorem get?_insertAll (t : Table α) (sorted : vs.Pairwise fun a b => a.1 < b.1)
    {v : String × α} (hv : v ∈ vs) : (t.insertAll vs).get? v.1 = some v.2 := by
  induction vs generalizing t with
  | nil => cases hv
  | cons w ws ih =>
    obtain ⟨least, rest⟩ := List.pairwise_cons.mp sorted
    rcases List.mem_cons.mp hv with rfl | later
    · have others : ∀ w ∈ ws, w.1 ≠ v.1 := fun w hw same =>
        String.lt_irrefl v.1 (same ▸ least w hw)
      exact (get?_insertAll_of_not (t.insert v.1 v.2) others).trans (t.get?_insert_self v.1 v.2)
    · exact ih (t.insert w.1 w.2) rest later

theorem insertAll_of_get? {t : Table α} (given : ∀ v ∈ vs, t.get? v.1 = some v.2) :
    t.insertAll vs = t := by
  induction vs with
  | nil => rfl
  | cons v vs ih =>
    obtain ⟨first, rest⟩ := List.forall_mem_cons.mp given
    have step : t.insertAll (v :: vs) = (t.insert v.1 v.2).insertAll vs := rfl
    rw [step, insert_of_get? first, ih rest]

end Table

namespace Text

/-- The characters that are printed as something and are among the first. -/
def Printed (c : Char) : Prop := 0x20 < c.toNat ∧ c.toNat < 0x7F

instance (c : Char) : Decidable (Printed c) :=
  inferInstanceAs (Decidable (0x20 < c.toNat ∧ c.toNat < 0x7F))

theorem Printed.isBlank {c : Char} (printed : Printed c) : isBlank c = false := by
  unfold Printed at printed
  simp [Text.isBlank]
  omega

theorem printed_of_isDigit {c : Char} (digit : c.isDigit = true) : Printed c := by
  have range : 48 ≤ c.toNat ∧ c.toNat ≤ 57 := by
    simpa [Char.isDigit, UInt32.le_iff_toNat_le] using digit
  exact ⟨by omega, by omega⟩

theorem trim_of_printed {cs : List Char} (printed : ∀ c ∈ cs, Printed c) : trim cs = cs := by
  have front : ∀ ds : List Char, (∀ d ∈ ds, Printed d) → ds.dropWhile Text.isBlank = ds := by
    intro ds all
    cases ds with
    | nil => rfl
    | cons d ds =>
      exact List.dropWhile_cons_of_neg (by simp [(all d List.mem_cons_self).isBlank])
  rw [trim, front cs printed, front cs.reverse fun c hc => printed c (List.mem_reverse.mp hc),
    List.reverse_reverse]

end Text

/-- A number of digits is written without white space. -/
theorem Json.Spelt.printed {l : Decimal.Literal} (h : Spelt l) :
    ∀ c ∈ l.chars, Text.Printed c := by
  have digits : ∀ ds : List Char, (∀ d ∈ ds, d.isDigit) → ∀ c ∈ ds, Text.Printed c :=
    fun ds all c hc => Text.printed_of_isDigit (all c hc)
  unfold Decimal.Literal.chars
  refine List.forall_mem_append.mpr ⟨List.forall_mem_append.mpr
    ⟨List.forall_mem_append.mpr ⟨?sign, ?whole⟩, ?fraction⟩, ?exponent⟩
  case sign =>
    split
    · exact List.forall_mem_singleton.mpr (by decide)
    · simp
  case whole =>
    rcases h.whole with zero | ⟨-, -, all⟩
    · rw [zero]
      exact List.forall_mem_singleton.mpr (by decide)
    · exact digits l.whole all
  case fraction =>
    split
    · simp
    · exact List.forall_mem_cons.mpr ⟨by decide, digits l.fraction h.fraction⟩
  case exponent =>
    split
    · simp
    · rename_i e power
      have mark : ∀ c ∈ e.mark.chars, Text.Printed c :=
        List.all_iff_forall_prop.mp (by cases e.mark <;> decide)
      exact List.forall_mem_cons.mpr ⟨by decide,
        List.forall_mem_append.mpr ⟨mark, digits e.digits (h.exponent e power).2⟩⟩

namespace Double

/-- The text of a double has no white space that reading could take off. -/
theorem printed_plain (x : Float) : ∀ c ∈ (Written.plain x).toList, Text.Printed c := by
  have zero : ∀ negative, Spelt (plainLayout.literal negative .zero) :=
    fun _ => ⟨.inl rfl, by simp [Decimal.Layout.literal, plainLayout],
      by simp [Decimal.Layout.literal]⟩
  have written : ∀ l, Spelt l → ∀ c ∈ l.text.toList, Text.Printed c := by
    intro l spelt
    rw [Decimal.Literal.text, String.toList_ofList]
    exact spelt.printed
  change ∀ c ∈ (text plainLayout.literal x).toList, _
  rw [text, parts]
  cases x.toModel.unpack with
  | notANumber => exact List.all_iff_forall_prop.mp (by decide)
  | infinity s => cases s <;> exact List.all_iff_forall_prop.mp (by decide)
  | zero s => exact written _ (zero _)
  | finite s m e pos => exact written _ (Decimal.Layout.spelt_literal _ _ pos)

/-- The text of a double that gives it back when it is read. -/
def ReadsBack (x : Float) : Prop := Written.read? (Written.plain x) = some x

theorem ReadsBack.asNumber {x : Float} (back : ReadsBack x) :
    (Constraint.unrounded (.number x)).asNumber = x := by
  have clear : Text.trim (Written.plain x).toList = (Written.plain x).toList :=
    Text.trim_of_printed (printed_plain x)
  rw [Constraint.unrounded, Raw.asNumber, clear, String.ofList_toList, back]
  rfl

end Double

/-- A measured value in the unit that residuals are written in. -/
def Constant.Definition.converted {K : Type} [Scalar K] (d : Definition) : Value K → Value K
  | .number x => .number (d.scale.convert x)
  | .flag b => .flag b

theorem Constant.Definition.resolve_unrounded {d : Definition} {v : Value Float}
    (form : v.form = d.form) (back : ∀ x, v = .number x → Double.ReadsBack x) :
    d.resolve (Constraint.unrounded v) = d.converted v := by
  cases v with
  | number x =>
    have number : d.form = .number := form.symm
    rw [resolve, number]
    exact congrArg (fun y => Value.number (d.scale.convert y)) (back x rfl).asNumber
  | flag b =>
    have flag : d.form = .flag := form.symm
    rw [resolve, flag]
    rfl

namespace Constraint

variable {K : Type} [Written K]

def remeasured (c : Constraint K) (values : List (String × Value K)) : Constraint K :=
  { c with constants := c.constants.insertAll (values.map fun v => (v.1, unrounded v.2)) }

theorem foldl_setConstant_eq (c : Constraint K) (values : List (String × Value K)) :
    values.foldl (fun c v => c.setConstant v.1 (unrounded v.2)) c = c.remeasured values := by
  rw [foldl_setConstant, remeasured, Table.insertAll, List.foldl_map]

variable {c d : Constraint K} {values : List (String × Value K)}

section Scalar

variable [Scalar K] {s : Sketch K}

/-- Measuring again puts what was measured over the constants that were there. -/
theorem resync_of_measured (known : c.kind.resyncs = true)
    (measured : c.kind.measure s c.objects = .ok values) :
    c.resync s = .ok (c.remeasured values) := by
  rw [resync, if_pos known, measured, ← foldl_setConstant_eq]
  rfl

/-- Where it succeeds, that is what it did. -/
theorem exists_of_resync (known : c.kind.resyncs = true) (h : c.resync s = .ok d) :
    ∃ values, c.kind.measure s c.objects = .ok values ∧ d = c.remeasured values := by
  rw [resync, if_pos known] at h
  obtain ⟨values, measured, h⟩ := bind_eq_ok.mp h
  exact ⟨values, measured, (Except.ok.inj h).symm.trans (foldl_setConstant_eq c values)⟩

theorem exists_of_initConstants (some : c.kind.definitions.isEmpty = false)
    (h : c.initConstants s = .ok d) :
    ∃ values, c.kind.measure s c.objects = .ok values ∧
      d.constants = .ofList (values.map fun v => (v.1, rounded c.options v.2)) := by
  rw [initConstants, if_neg (by simp [some])] at h
  obtain ⟨values, measured, h⟩ := bind_eq_ok.mp h
  cases h
  exact ⟨values, measured, rfl⟩

end Scalar

section Remeasured

variable (names : List.Forall₂ Definition.Names c.kind.definitions values)

include names

theorem get?_remeasured {v : String × Value K} (hv : v ∈ values) :
    (c.remeasured values).constants.get? v.1 = some (unrounded v.2) := by
  have put : (v.1, unrounded v.2) ∈ values.map fun v => (v.1, unrounded v.2) :=
    List.mem_map.mpr ⟨v, hv, rfl⟩
  exact Table.get?_insertAll c.constants (Kind.sorted_of_names names unrounded) put

theorem get?_remeasured_of_not {name : String}
    (undefined : ∀ d ∈ c.kind.definitions, d.name ≠ name) :
    (c.remeasured values).constants.get? name = c.constants.get? name := by
  have same : values.map Prod.fst = c.kind.definitions.map (·.name) :=
    map_eq_of_forall₂ names fun _ _ h => h.1
  refine Table.get?_insertAll_of_not c.constants fun w hw => ?_
  obtain ⟨v, hv, rfl⟩ := List.mem_map.mp hw
  have defined : v.1 ∈ c.kind.definitions.map (·.name) := same ▸ List.mem_map_of_mem hv
  obtain ⟨d, hd, eq⟩ := List.mem_map.mp defined
  exact eq ▸ undefined d hd

/-- What was measured can be put in again. -/
theorem remeasured_again : (c.remeasured values).remeasured values = c.remeasured values := by
  have given : ∀ w ∈ values.map (fun v => (v.1, unrounded v.2)),
      (c.remeasured values).constants.get? w.1 = some w.2 := by
    intro w hw
    obtain ⟨v, hv, rfl⟩ := List.mem_map.mp hw
    exact get?_remeasured names hv
  have same := Table.insertAll_of_get? given
  rw [remeasured, same]

end Remeasured

end Constraint

/-- The defined constants of a constraint that was measured again resolve to what was measured. -/
theorem Constraint.resolves_remeasured {c : Constraint Float} {values : List (String × Value Float)}
    (names : List.Forall₂ Definition.Names c.kind.definitions values)
    (back : ∀ v ∈ values, ∀ x, v.2 = .number x → Double.ReadsBack x) :
    List.Forall₂ (fun d v => v.1 = d.name ∧
      (c.remeasured values).resolved.get? d.name = some (d.converted v.2))
      c.kind.definitions values := by
  obtain ⟨length, named⟩ := List.forall₂_iff_zip.mp names
  refine List.forall₂_iff_zip.mpr ⟨length, fun {d v} pair => ?_⟩
  obtain ⟨hd, hv⟩ := List.of_mem_zip pair
  obtain ⟨name, form⟩ := named pair
  have given : (c.remeasured values).constants.get? d.name = some (unrounded v.2) :=
    name ▸ get?_remeasured names hv
  refine ⟨name, (Constant.get?_resolve c.kind.names_rising hd given).trans ?_⟩
  rw [Definition.resolve_unrounded form (back v hv)]

namespace Memo

/-- After a second measurement each constant of a kind that allows it resolves to what was
measured, as far as the texts of the numbers give them back; what else was given stays, and a third
one in the same sketch changes nothing. Measuring for the first time leaves the defined names
alone. Where either is refused, or does not apply, the constraint stays as it is. -/
theorem resync_reproduces (m : Memo Float) (s : Sketch Float) :
    let defs := m.constraint.kind.definitions
    (m.constraint.kind.resyncs = false → outcome (resync s) m = (.ok (), m)) ∧
    (∀ e n, outcome (resync s) m = (.error e, n) → n = m) ∧
    (∀ n, m.constraint.kind.resyncs = true → outcome (resync s) m = (.ok (), n) →
      n.constraint = { m.constraint with constants := n.constraint.constants } ∧
      (∃ values, m.constraint.kind.measure s m.constraint.objects = .ok values ∧
        ((∀ v ∈ values, ∀ x, v.2 = .number x → Double.ReadsBack x) →
          List.Forall₂ (fun d v => v.1 = d.name ∧
            (resolve.run n).1.get? d.name = some (d.converted v.2)) defs values)) ∧
      (∀ name, (∀ d ∈ defs, d.name ≠ name) →
        n.constraint.constants.get? name = m.constraint.constants.get? name) ∧
      ∀ r, outcome (resync s) ⟨n.constraint, r⟩ = (.ok (), n)) ∧
    (defs.isEmpty = true → outcome (initConstants s) m = (.ok (), m)) ∧
    (∀ e n, outcome (initConstants s) m = (.error e, n) → n = m) ∧
    (∀ n, defs.isEmpty = false → outcome (initConstants s) m = (.ok (), n) →
      n.constraint = { m.constraint with constants := n.constraint.constants } ∧
      n.constraint.constants.names = defs.map (·.name)) := by
  refine ⟨refresh_of_not, fun _ _ => refresh_error, fun n known ended => ?_,
    fun none => refresh_of_not (by simpa using none), fun _ _ => refresh_error,
    fun n some ended => ?_⟩
  · obtain ⟨d, again, rfl⟩ := exists_of_refresh known ended
    obtain ⟨values, measured, rfl⟩ := Constraint.exists_of_resync known again
    have names := Kind.names_of_measure measured
    refine ⟨rfl, ⟨values, measured, fun back => ?_⟩,
      fun name => Constraint.get?_remeasured_of_not names, fun r => ?_⟩
    · rw [(fresh_new _).resolve]
      exact Constraint.resolves_remeasured names back
    · have third : (m.constraint.remeasured values).resync s =
          .ok ((m.constraint.remeasured values).remeasured values) :=
        Constraint.resync_of_measured known measured
      rw [Constraint.remeasured_again names] at third
      exact refresh_of_ok (m := ⟨m.constraint.remeasured values, r⟩) known third
  · obtain ⟨d, first, rfl⟩ := exists_of_refresh (by simpa using some) ended
    obtain ⟨values, measured, constants⟩ := Constraint.exists_of_initConstants some first
    have names := Kind.names_of_measure measured
    obtain ⟨t, rfl⟩ := Constraint.initConstants_eq_ok first
    have sorted := Kind.sorted_of_names names (Constraint.rounded m.constraint.options)
    have given : t.entries =
        values.map fun v => (v.1, Constraint.rounded m.constraint.options v.2) :=
      (congrArg Table.entries constants).trans (Table.entries_ofList sorted)
    have defined : t.names = m.constraint.kind.definitions.map (·.name) := by
      rw [Table.names, given, List.map_map]
      exact map_eq_of_forall₂ names fun _ _ h => h.1
    exact ⟨rfl, defined⟩

def dotted : Sketch Float := ((Sketch.addPoint ⟨1.23456, -2.5⟩).run .empty).2

/-- Its point locked elsewhere, with a constant that nothing defines. -/
def astray : Memo Float := new { locked with objects := [⟨1⟩] }

theorem resync_reproduces_astray : ∃ n k,
    outcome (resync dotted) astray = (.ok (), n) ∧
    (resolve.run n).1.get? "x" = some (.number 1.23456) ∧
    (resolve.run n).1.get? "y" = some (.number (-2.5)) ∧
    n.constraint.constants.get? "note" = some (.text "draft") ∧
    outcome (resync dotted) n = (.ok (), n) ∧
    outcome (initConstants dotted) astray = (.ok (), k) ∧
    k.constraint.constants.names = ["x", "y"] := by
  obtain ⟨-, -, again, -, -, first⟩ := resync_reproduces astray dotted
  have measured : Kind.lockPoint.measure dotted [⟨1⟩] =
      .ok [("x", .number 1.23456), ("y", .number (-2.5))] := rfl
  have back : Double.ReadsBack 1.23456 ∧ Double.ReadsBack (-2.5) := by
    unfold Double.ReadsBack
    decide +kernel
  have done : (outcome (resync dotted) astray).1 = .ok () := rfl
  obtain ⟨n, ended⟩ := exists_left done
  have begun : (outcome (initConstants dotted) astray).1 = .ok () := rfl
  obtain ⟨k, started⟩ := exists_left begun
  obtain ⟨-, ⟨values, same, resolves⟩, kept, third⟩ := again n rfl ended
  obtain rfl : [("x", .number 1.23456), ("y", .number (-2.5))] = values :=
    Except.ok.inj (measured.symm.trans same)
  obtain ⟨⟨-, x⟩, rest⟩ := List.forall₂_cons.mp (resolves (by simpa using back))
  obtain ⟨⟨-, y⟩, -⟩ := List.forall₂_cons.mp rest
  exact ⟨n, k, ended, x, y, kept "note" (by decide), third n.resolved?, started,
    (first k rfl started).2⟩

end Memo

end Drafting
