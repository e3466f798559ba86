import Drafting.Double
import Drafting.Proofs.Session

namespace Drafting.Workbench

variable {K : Type} [Scalar K]

def readEach (saved : List (SavedConstraint K)) :
    Sketch.Edit K ConstraintError (List (Constraint K)) :=
  saved.mapM fun r => Constraint.read r.record

/-- Why a text is refused over a sketch: it does not hold saved constraints, or one of them cannot
be read where all before it were. -/
inductive Refuses [Written K] (s : Sketch K) (text : String) : WorkbenchError → Prop where
  | text (unreadable : readSaved? (K := K) text = none) : Refuses s text .serialization
  | record {before rest : List (SavedConstraint K)} {bad : SavedConstraint K}
      {made : List (Constraint K)} {u : Sketch K} {e : ConstraintError}
      (saved : readSaved? text = some (before ++ bad :: rest))
      (read : outcome (readEach before) s = (.ok made, u))
      (refused : (outcome (Constraint.read bad.record) u).1 = .error e) :
      Refuses s text (.constraint e)

variable {s t u : Sketch K}

/-- A record that can be read leaves its constraint for the others to be read over. -/
theorem readEach_cons {first : SavedConstraint K} {rest : List (SavedConstraint K)}
    {c : Constraint K} {cs : List (Constraint K)}
    (read : outcome (Constraint.read first.record) s = (.ok c, t))
    (others : outcome (readEach rest) t = (.ok cs, u)) :
    outcome (readEach (first :: rest)) s = (.ok (c :: cs), u) := by
  unfold readEach at others ⊢
  rw [List.mapM_cons, outcome_bind_ok read, outcome_bind_ok others]
  rfl

/-- Reading stops at the first record that cannot be read, with its error. -/
theorem readAll_eq_error {ns : List (NamedConstraint K)} {saved : List (SavedConstraint K)}
    {e : ConstraintError} (h : (outcome (readAll ns saved) s).1 = .error e) :
    ∃ before bad rest made u, saved = before ++ bad :: rest ∧
      outcome (readEach before) s = (.ok made, u) ∧
      (outcome (Constraint.read bad.record) u).1 = .error e := by
  induction saved generalizing ns s with
  | nil => cases h
  | cons first rest ih =>
    rw [outcome_readAll_cons] at h
    cases read : outcome (Constraint.read first.record) s with
    | mk answer t =>
      rw [read] at h
      cases answer with
      | ok c =>
        obtain ⟨before, bad, later, made, u, split, others, refused⟩ := ih h
        exact ⟨first :: before, bad, later, c :: made, u, by rw [split, List.cons_append],
          readEach_cons read others, refused⟩
      | error d =>
        cases h
        exact ⟨[], first, rest, [], s, rfl, rfl, congrArg Prod.fst read⟩

variable [Written K]

/-- A text that is refused leaves everything as it was, and the error is that of the text itself or
of its first record that cannot be read with the current marks off. -/
theorem load_refused (ops : List (Operation K)) {text : String} {e : WorkbenchError}
    {b' : Workbench K} (h : outcome (load text) (after ops) = (.error e, b')) :
    let b := after ops
    b' = { b with sketch := b'.sketch } ∧ b.sketch.Unchanged b'.sketch ∧
      Refuses (stepAside b.constraints b.sketch) text e := by
  intro b
  cases parsed : readSaved? (K := K) text with
  | none =>
    rw [load_of_unreadable _ parsed] at h
    cases h
    exact ⟨rfl, .refl _, .text parsed⟩
  | some saved =>
    cases run : outcome (readAll [] saved) (stepAside b.constraints b.sketch) with
    | mk answer u =>
      cases answer with
      | ok loaded =>
        rw [outcome_load _ parsed, run] at h
        cases h
      | error d =>
        obtain ⟨v, failed, same⟩ := load_of_error (sound_after ops) parsed run
        rw [failed] at h
        cases h
        obtain ⟨before, bad, rest, made, t, rfl, read, refused⟩ :=
          readAll_eq_error (congrArg Prod.fst run)
        exact ⟨rfl, same, .record parsed read refused⟩

def oneMirror : List (Operation Float) :=
  [.segment "l" ⟨0, 0⟩ ⟨0, 1⟩, .point "a" ⟨5, 5⟩, .point "b" ⟨6, 6⟩,
    .constrain "own" .mirror ["l", "a", "b"]]

/-- The first record claims the target of the mirror, the second is of no kind. -/
def halfReadable : String :=
  "[\x7b\"name\":\"new\",\"typeId\":\"Mirror\",\"objects\":[3,4,5]\x7d,"
    ++ "\x7b\"name\":\"old\",\"typeId\":\"Bogus\",\"objects\":[]\x7d]"

theorem load_refused_halfReadable :
    ∃ b', outcome (load halfReadable) (after oneMirror) =
        (.error (.constraint (.unknownSchema "Bogus")), b') ∧
      b' = { after oneMirror with sketch := b'.sketch } ∧
      b'.sketch.owner ⟨5⟩ = .ok (some ⟨0⟩) ∧
      Refuses (stepAside (after oneMirror).constraints (after oneMirror).sketch) halfReadable
        (.constraint (.unknownSchema "Bogus")) := by
  have owned : (after oneMirror).sketch.owner ⟨5⟩ = .ok (some ⟨0⟩) := by decide +kernel
  have failed : (outcome (load halfReadable) (after oneMirror)).1 =
      .error (.constraint (.unknownSchema "Bogus")) := by decide +kernel
  obtain ⟨b', run⟩ := exists_left failed
  obtain ⟨kept, same, refuses⟩ := load_refused oneMirror run
  exact ⟨b', run, kept, (Sketch.owner_congr same.entities ⟨5⟩).trans owned, refuses⟩

end Drafting.Workbench
