import Drafting.Proofs.Comparing
import Drafting.Proofs.Rereading
import Drafting.Proofs.Transcribing

namespace Drafting

open Constant (Raw)

variable {K : Type} [Scalar K]

theorem Constant.Raw.same_self {raw : Raw K} (h : ∀ x, raw = .number x → (x == x) = true) :
    raw.same raw = true := by
  cases raw with
  | text s => exact beq_self_eq_true s
  | number x => exact h x rfl
  | flag b => exact beq_self_eq_true b

theorem Constant.sameConstants_self {t : Table (Raw K)}
    (h : ∀ name x, (name, Raw.number x) ∈ t.entries → (x == x) = true) :
    Constant.sameConstants t t = true := by
  rw [Constant.sameConstants, beq_self_eq_true, Bool.true_and, List.all_eq_true]
  rw [List.zip_eq_zipWith, List.zipWith_self, List.forall_mem_map]
  exact fun e mem => Constant.Raw.same_self fun x hx => h e.1 x (hx ▸ mem)

theorem Record.same_self {r : Record K} (h : ∀ x, r.Gives x → (x == x) = true) :
    r.same r = true := by
  rw [Record.same, beq_self_eq_true, beq_self_eq_true,
    Constant.sameConstants_self fun name x hx => h x ⟨name, hx⟩]
  rfl

namespace Audit

variable {c : Constraint K}

/-- What the check says of a constraint that it finds no fault with. -/
def kept (c : Constraint K) : Verdict K :=
  ⟨"round_trip", true, c.label ++
    (if c.kind.isModifier then ": record restored, ownership kept" else ": record restored"), none⟩

theorem restoredVerdict_of_renews {d : Constraint K} (residual : c.kind.isModifier = false)
    (alike : ∀ x, c.record.Gives x → (x == x) = true) (renews : c.Renews d)
    (params : d.params.length = c.params.length) : restoredVerdict c d = kept c := by
  have constants : Constant.sameConstants c.constants c.constants = true :=
    Constant.sameConstants_self fun name x hx => alike x ⟨name, hx⟩
  unfold restoredVerdict kept
  simp only [renews.kind, renews.objects, renews.constants, params, constants, residual,
    beq_self_eq_true, Bool.and_self, Bool.false_eq_true, if_false, if_true]
  rfl

omit [Scalar K] in
theorem refusedVerdict_of_modifier (modifier : c.kind.isModifier = true) (id : ObjectId)
    (i : ConstraintId) : refusedVerdict c (.alreadyManaged id i) = kept c := by
  simp only [refusedVerdict, modifier, kept, if_true]
  rfl

/-- Where the record is legible, the check goes by what reading it again gives. -/
theorem run_roundTrip [Written K] (legible : c.record.Legible)
    (alike : ∀ x, c.record.Gives x → (x == x) = true) (s : Sketch K) :
    ((roundTrip c).run s).1 =
      match (outcome (Constraint.read c.record) s).1 with
      | .ok d => restoredVerdict c d
      | .error e => refusedVerdict c e := by
  have same := Record.same_self alike
  have run : (Constraint.read c.record).run.run s = outcome (Constraint.read c.record) s := rfl
  unfold roundTrip
  simp only [Record.read?_write legible, same, Bool.not_true, Bool.false_eq_true, if_false]
  rw [StateT.run_bind, run]
  obtain ⟨answer, t⟩ := outcome (Constraint.read c.record) s
  cases answer <;> rfl

end Audit

namespace Workbench

variable {b : Workbench K} {n : NamedConstraint K}

omit [Scalar K] in
/-- Objects of a listed constraint are numbered like all others. -/
theorem Founded.val_le_lastObject (f : Founded b) (hn : n ∈ b.constraints) {id : ObjectId}
    (hid : id ∈ n.constraint.objects) : id.val ≤ b.sketch.lastObject := by
  obtain ⟨e, he⟩ := Option.isSome_iff_exists.mp ((f.stands n hn).known id hid)
  obtain ⟨mem, rfl⟩ := (Sketch.entity?_eq_some_iff f.ordered).mp he
  exact f.ordered.numbered e mem

/-- A listed constraint with residuals is made anew from its record. -/
theorem Founded.read_listed (f : Founded b) (hn : n ∈ b.constraints)
    (residual : n.constraint.kind.isModifier = false) :
    ∃ d t, outcome (Constraint.read n.constraint.record) b.sketch = (.ok d, t) ∧
      n.constraint.Renews d ∧ d.params.length = n.constraint.params.length := by
  have stands := f.stands n hn
  obtain ⟨d, t, read, renews⟩ :=
    stands.renews f.ordered.grounded (by simp [stands.managed_of_residual residual])
  have again := Constraint.stands_read f.ordered.grounded read
  exact ⟨d, t, read, renews, by rw [again.params, stands.params, renews.kind]⟩

/-- A listed modifier owns its targets, so that its record is refused for one of them. -/
theorem Founded.refused_listed (f : Founded b) (hn : n ∈ b.constraints)
    (modifier : n.constraint.kind.isModifier = true) :
    ∃ id ∈ n.constraint.managed, ∃ t, outcome (Constraint.read n.constraint.record) b.sketch =
      (.error (.alreadyManaged id n.constraint.id), t) := by
  obtain ⟨id, mine, t, refused, -⟩ := (f.stands n hn).read_refused
    (fun id hid => (f.owner_iff hn id).mpr hid) modifier
  exact ⟨id, mine, t, refused⟩

variable [Written K]

/-- The check finds no fault with a listed constraint. -/
theorem Founded.run_roundTrip (f : Founded b) (hn : n ∈ b.constraints)
    (legible : n.constraint.record.Legible)
    (alike : ∀ x, n.constraint.record.Gives x → (x == x) = true) :
    ((Audit.roundTrip n.constraint).run b.sketch).1 = Audit.kept n.constraint := by
  rw [Audit.run_roundTrip legible alike]
  cases kind : n.constraint.kind.isModifier with
  | false =>
    obtain ⟨d, t, read, renews, params⟩ := f.read_listed hn kind
    rw [read]
    exact Audit.restoredVerdict_of_renews kind alike renews params
  | true =>
    obtain ⟨id, -, t, refused⟩ := f.refused_listed hn kind
    rw [refused]
    exact Audit.refusedVerdict_of_modifier kind id _

/-- After any session the check finds no fault with any constraint whose numbers are finite and read
back as they were written: constraints with residuals are restored, and modifiers are refused for a
target that they own. Numbers of objects have 32 bits. -/
theorem round_trip_passes (ops : List (Operation Float)) (n : NamedConstraint Float)
    (hn : n ∈ (after ops).constraints) (few : (after ops).sketch.lastObject < Nat.pow 2 32)
    (finite : ∀ x, n.constraint.record.Gives x → x.isFinite = true)
    (numbers : ∀ x, n.constraint.record.Gives x →
      Written.ofLiteral? (Written.literal x) = some x) :
    ((Audit.roundTrip n.constraint).run (after ops).sketch).1 = Audit.kept n.constraint ∧
    (n.constraint.kind.isModifier = false →
      ∃ d t, outcome (Constraint.read n.constraint.record) (after ops).sketch = (.ok d, t) ∧
        n.constraint.Renews d ∧ d.params.length = n.constraint.params.length) ∧
    (n.constraint.kind.isModifier = true →
      ∃ id ∈ n.constraint.managed, ∃ t,
        outcome (Constraint.read n.constraint.record) (after ops).sketch =
          (.error (.alreadyManaged id n.constraint.id), t)) := by
  have founded := founded_after ops
  refine ⟨founded.run_roundTrip hn ⟨fun id hid => ?_, fun x hx => ?_⟩ fun x hx => ?_,
    founded.read_listed hn, founded.refused_listed hn⟩
  · exact Nat.lt_of_le_of_lt (founded.val_le_lastObject hn hid) few
  · exact ⟨finite x hx, Double.spelt_storedLiteral x, numbers x hx⟩
  · exact Double.beq_self (Double.isNaN_eq_false_of_isFinite (finite x hx))

omit [Scalar K] [Written K] in
/-- Numbers that are given are those among the constants of the list. -/
theorem gives_iff {entries : List (List (String × Raw K))}
    (listed : b.constraints.map (·.constraint.constants.entries) = entries) {x : K} :
    b.Gives x ↔ ∃ name, (name, Raw.number x) ∈ entries.flatten := by
  subst listed
  simp only [List.mem_flatten, List.mem_map, exists_exists_and_eq_and]
  constructor
  · rintro ⟨n, hn, name, hx⟩
    exact ⟨name, n, hn, hx⟩
  · rintro ⟨name, n, hn, hx⟩
    exact ⟨n, hn, name, hx⟩

/-- The distance is zero with a sign, and one of its constants has no definition. -/
def annotated : List (Operation Float) :=
  [.segment "l" ⟨0, 0⟩ ⟨0, 1⟩, .point "a" ⟨5, 5⟩, .point "b" ⟨6, 6⟩,
    .constrain "own" .mirror ["l", "a", "b"],
    .constrainWith "on" .distancePL ["a", "l"] (.ofList
      [("distance", .number (-0.0)), ("inverted", .flag true), ("note", .text "a \"b\"")])]

theorem round_trip_passes_annotated :
    (after annotated).Gives (-0.0) ∧
      ∀ n ∈ (after annotated).constraints,
        ((Audit.roundTrip n.constraint).run (after annotated).sketch).1 =
          Audit.kept n.constraint := by
  have listed : (after annotated).constraints.map (·.constraint.constants.entries) =
      [[], [("distance", .number (-0.0)), ("inverted", .flag true),
        ("note", .text "a \"b\"")]] := by rfl
  have given {x : Float} : (after annotated).Gives x ↔ x = -0.0 := by simp [gives_iff listed]
  refine ⟨given.mpr rfl, fun n hn => ?_⟩
  refine (round_trip_passes annotated n hn (by decide +kernel) (fun x hx => ?_) fun x hx => ?_).1
  · rw [given.mp ⟨n, hn, hx⟩]
    decide +kernel
  · rw [given.mp ⟨n, hn, hx⟩]
    decide +kernel

end Workbench

end Drafting
