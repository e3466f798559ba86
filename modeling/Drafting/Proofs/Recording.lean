import Drafting.Workbench.Archive
import Drafting.Proofs.Printing

namespace Drafting

open Constant (Raw)
open Decimal (Literal)
open Json (Spelt)

theorem Decimal.Literal.significand_ofNat (n : Nat) : (Literal.ofNat n).significand = n := by
  have digits : (Literal.ofNat n).significand = Nat.ofDigitChars 10 (Nat.toDigits 10 n) 0 := by
    rw [Literal.significand, Literal.ofNat, List.append_nil, Nat.ofDigitChars_eq_foldl]
    rfl
  rw [digits, Nat.ofDigitChars_ten_toDigits]

/-- Only zero starts with a zero. -/
theorem head_toDigits {n : Nat} (pos : 0 < n) : (Nat.toDigits 10 n).head? ≠ some '0' := by
  induction n using Nat.strongRecOn with
  | ind n ih =>
    rw [Nat.toDigits_eq_if (by decide)]
    split
    · rename_i small
      have all : ∀ m < 10, 0 < m → [Nat.digitChar m].head? ≠ some '0' := by decide
      exact all n small pos
    · rw [List.head?_append_of_ne_nil _ Nat.toDigits_ne_nil]
      exact ih (n / 10) (by omega) (by omega)

/-- Numbers of objects are written in digits without a zero in front. -/
theorem Json.spelt_ofNat (n : Nat) : Spelt (Literal.ofNat n) where
  whole := by
    rcases Nat.eq_zero_or_pos n with rfl | pos
    · exact .inl rfl
    · exact .inr ⟨Nat.toDigits_ne_nil, head_toDigits pos,
        fun d hd => Nat.isDigit_of_mem_toDigits (by decide) (by decide) hd⟩
  fraction := by simp [Literal.ofNat]
  exponent := by simp [Literal.ofNat]

namespace Json

variable {string : Option String → Bool} {number : Literal → Bool} {d : Nat}

theorem allItems_iff {js : List Json} :
    allItems string number js ↔ ∀ j ∈ js, j.all string number := by
  induction js with
  | nil => simp [allItems]
  | cons j js ih => rw [allItems, Bool.and_eq_true_iff, ih, List.forall_mem_cons]

theorem allMembers_iff {ms : List (Option String × Json)} :
    allMembers string number ms ↔ ∀ m ∈ ms, string m.1 ∧ m.2.all string number := by
  induction ms with
  | nil => simp [allMembers]
  | cons m ms ih =>
    rw [allMembers, Bool.and_eq_true_iff, Bool.and_eq_true_iff, ih, List.forall_mem_cons]

theorem all_fields {fs : List (String × Json)} :
    (fields fs).all Option.isSome number ↔ ∀ f ∈ fs, f.2.all Option.isSome number := by
  rw [fields, all, allMembers_iff, List.forall_mem_map]
  simp

theorem itemsDepth_le {js : List Json} (h : ∀ j ∈ js, j.depth ≤ d) : itemsDepth js ≤ d := by
  induction js with
  | nil => exact Nat.zero_le d
  | cons j js ih =>
    obtain ⟨first, others⟩ := List.forall_mem_cons.mp h
    exact Nat.max_le.mpr ⟨first, ih others⟩

theorem membersDepth_le {ms : List (Option String × Json)} (h : ∀ m ∈ ms, m.2.depth ≤ d) :
    membersDepth ms ≤ d := by
  induction ms with
  | nil => exact Nat.zero_le d
  | cons m ms ih =>
    obtain ⟨first, others⟩ := List.forall_mem_cons.mp h
    exact Nat.max_le.mpr ⟨first, ih others⟩

theorem depth_fields_le {fs : List (String × Json)} (h : ∀ f ∈ fs, f.2.depth ≤ d) :
    (fields fs).depth ≤ d + 1 := by
  refine Nat.succ_le_succ (membersDepth_le fun m hm => ?_)
  obtain ⟨f, hf, rfl⟩ := List.mem_map.mp hm
  exact h f hf

end Json

/-- A list whose items are each read back is read back. -/
theorem mapM_map_eq_some {α β : Type} {write : α → β} {read : β → Option α} {as : List α}
    (h : ∀ a ∈ as, read (write a) = some a) : (as.map write).mapM read = some as := by
  induction as with
  | nil => rfl
  | cons a as ih =>
    obtain ⟨first, others⟩ := List.forall_mem_cons.mp h
    rw [List.map_cons, List.mapM_cons, first, ih others]
    rfl

variable {K : Type} [Scalar K] [Written K]

/-- What is written of the number is read as the number. -/
structure Written.ReadsBack (x : K) : Prop where
  spelt : Spelt (Written.literal x)
  read : Written.ofLiteral? (Written.literal x) = some x

namespace Record

variable {r : Record K}

def Gives (r : Record K) (x : K) : Prop := ∃ name, (name, Raw.number x) ∈ r.constants.entries

/-- What is written of the record can be read: numbers of objects have 32 bits, and numbers that are
given as constants are finite. -/
structure Legible (r : Record K) : Prop where
  objects : ∀ id ∈ r.objects, id.val < Nat.pow 2 32
  numbers : ∀ x, r.Gives x → Scalar.isFinite x ∧ Written.ReadsBack x

/-- It can be read among the saved constraints, where every number of the text is looked at. -/
structure Storable (r : Record K) : Prop where
  objects : ∀ id ∈ r.objects,
    id.val < Nat.pow 2 32 ∧ (Written.ofLiteral? (K := K) (.ofNat id.val)).isSome
  numbers : ∀ x, r.Gives x → Scalar.isFinite x ∧ Written.ReadsBack x

theorem Storable.legible (h : r.Storable) : r.Legible :=
  ⟨fun id hid => (h.objects id hid).1, h.numbers⟩

theorem objectId?_nat {id : ObjectId} (h : id.val < Nat.pow 2 32) :
    objectId? (.nat id.val) = some id := by
  simp only [objectId?, Json.nat, Literal.significand_ofNat]
  exact if_pos (by simpa [Literal.isWhole, Literal.ofNat] using h)

theorem raw?_rawJson (h : r.Legible) {e : String × Raw K} (he : e ∈ r.constants.entries) :
    raw? (rawJson e.2) = some e.2 := by
  obtain ⟨name, raw⟩ := e
  cases raw with
  | text s => rfl
  | flag b => rfl
  | number x =>
    obtain ⟨finite, back⟩ := h.numbers x ⟨name, he⟩
    rw [rawJson, if_pos finite, raw?, back.read]
    rfl

/-- A table is written in the order of its names and read back into the same table. -/
theorem constants?_fields (h : r.Legible) :
    constants? (.fields (r.constants.entries.map fun (k, v) => (k, rawJson v))) =
      some r.constants := by
  have read : (r.constants.entries.map
      fun e => ((some e.1, rawJson e.2) : Option String × Json)).mapM
      (fun m => do pure ((← m.1), (← raw? (K := K) m.2))) = some r.constants.entries := by
    refine mapM_map_eq_some fun e he => ?_
    rw [raw?_rawJson h he]
    rfl
  have same : Table.ofList r.constants.entries = r.constants :=
    Table.ext (Table.entries_ofList r.constants.sorted)
  rw [Json.fields, List.map_map, constants?]
  refine (congrArg (· >>= _) read).trans ?_
  exact congrArg some same

theorem objectIds?_nats (h : r.Legible) :
    objectIds? (.array (r.objects.map fun id => .nat id.val)) = some r.objects :=
  mapM_map_eq_some fun id hid => objectId?_nat (h.objects id hid)

/-- Members of other names are passed over. -/
theorem member?_append {others members : List (Option String × Json)} {name : String}
    (apart : ∀ m ∈ others, m.1 ≠ some name) :
    member? (others ++ members) name = member? members name := by
  have none : others.filter (fun m => m.1 == some name) = [] := by
    simpa [List.filter_eq_nil_iff] using apart
  rw [member?, member?, List.filter_append, none, List.nil_append]

/-- A record is read back from its members, whatever else has a name. -/
theorem ofMembers?_recordFields (h : r.Legible) (others : List (String × Json))
    (apart : ∀ f ∈ others, f.1 ∉ ["typeId", "objects", "constants"]) :
    ofMembers? ((others ++ r.recordFields).map fun (k, v) => (some k, v)) = some r := by
  have parts : ∀ constants, (∀ c ∈ constants, constants? c = some r.constants) →
      (constants = none → r.constants = .empty) →
      build? (.text r.typeId) (.array (r.objects.map fun id => .nat id.val)) constants =
        some r := by
    intro constants read absent
    rw [build?, objectIds?_nats h]
    cases constants with
    | none =>
      refine congrArg some (?_ : Record.mk _ _ _ = _)
      rw [← absent rfl]
    | some c =>
      simp only [typeId?, Json.text, read c rfl, Option.bind_eq_bind, Option.bind_some]
      rfl
  have passed : ∀ name ∈ ["typeId", "objects", "constants"],
      member? ((others ++ r.recordFields).map fun (k, v) => (some k, v)) name =
        member? (r.recordFields.map fun (k, v) => (some k, v)) name := by
    intro name hname
    rw [List.map_append]
    refine member?_append ?_
    rw [List.forall_mem_map]
    rintro f hf same
    exact apart f hf (Option.some.inj same ▸ hname)
  have named : ((others ++ r.recordFields).map
      fun (k, v) => ((some k, v) : Option String × Json)).any
      (fun m => m.1.isNone) = false := by
    simp
  rw [ofMembers?, named, passed _ (by simp), passed _ (by simp), passed _ (by simp)]
  by_cases none : r.constants.entries.isEmpty
  · have read := parts Option.none (by simp) fun _ => Table.ext (List.isEmpty_iff.mp none)
    simpa [recordFields, constantFields, member?, none] using read
  · have read := parts (some _) (by simpa using constants?_fields h) (by simp)
    simpa [recordFields, constantFields, member?, none] using read

/-- A record is read back from what is written of it. -/
theorem ofJson?_toJson (h : r.Legible) : ofJson? r.toJson = some r :=
  ofMembers?_recordFields h [] (List.forall_mem_nil _)

theorem all_recordFields {number : Literal → Bool}
    (objects : ∀ id ∈ r.objects, number (.ofNat id.val))
    (numbers : ∀ x, r.Gives x → number (Written.literal x)) :
    ∀ f ∈ r.recordFields, f.2.all Option.isSome number := by
  have raws : ∀ e ∈ r.constants.entries, (rawJson e.2).all Option.isSome number := by
    intro ⟨name, raw⟩ he
    cases raw with
    | text t => rfl
    | flag b => rfl
    | number x =>
      rw [rawJson]
      split
      · exact numbers x ⟨name, he⟩
      · rfl
  have constants : ∀ f ∈ constantFields r.constants, f.2.all Option.isSome number := by
    unfold constantFields
    split
    · simp
    · rw [List.forall_mem_singleton, Json.all_fields, List.forall_mem_map]
      exact raws
  rw [recordFields]
  simp only [List.cons_append, List.nil_append, List.forall_mem_cons]
  refine ⟨rfl, ?_, constants⟩
  rw [Json.all, Json.allItems_iff, List.forall_mem_map]
  exact objects

/-- What is written of a record is read back from its text. -/
theorem read?_write (h : r.Legible) : read? r.write = some r := by
  have spelt : r.toJson.all Option.isSome fun l => decide (Spelt l) :=
    Json.all_fields.mpr <| all_recordFields (fun id _ => decide_eq_true (Json.spelt_ofNat id.val))
      fun x hx => decide_eq_true (h.numbers x hx).2.spelt
  rw [read?, write, Json.read?_compact spelt]
  exact ofJson?_toJson h

end Record

namespace SavedConstraint

variable {s : SavedConstraint K}

theorem all_toJson {number : Literal → Bool}
    (objects : ∀ id ∈ s.record.objects, number (.ofNat id.val))
    (numbers : ∀ x, s.record.Gives x → number (Written.literal x)) :
    s.toJson.all Option.isSome number :=
  Json.all_fields.mpr <| List.forall_mem_cons.mpr
    ⟨rfl, Record.all_recordFields objects numbers⟩

/-- Nesting is limited when a text is read, and records stay far below that. -/
theorem depth_toJson_le (s : SavedConstraint K) : s.toJson.depth ≤ 2 := by
  have flat : ∀ raw : Raw K, (Record.rawJson raw).depth = 0 := by
    intro raw
    cases raw with
    | number x =>
      rw [Record.rawJson]
      split <;> rfl
    | _ => rfl
  have constants : ∀ f ∈ Record.constantFields s.record.constants, f.2.depth ≤ 1 := by
    unfold Record.constantFields
    split
    · simp
    · rw [List.forall_mem_singleton]
      refine Json.depth_fields_le ?_
      rw [List.forall_mem_map]
      exact fun e _ => Nat.le_of_eq (flat e.2)
  refine Json.depth_fields_le ?_
  rw [Record.recordFields]
  simp only [List.cons_append, List.nil_append, List.forall_mem_cons]
  refine ⟨Nat.zero_le 1, Nat.zero_le 1, ?_, constants⟩
  refine Nat.succ_le_succ (Json.itemsDepth_le ?_)
  rw [List.forall_mem_map]
  exact fun _ _ => Nat.le_refl 0

theorem ofJson?_toJson (h : s.record.Storable) : ofJson? s.toJson = some s := by
  have readable : isReadable (K := K) s.toJson :=
    all_toJson (fun id hid => (h.objects id hid).2)
      fun x hx => by rw [(h.numbers x hx).2.read]; rfl
  have members : Record.ofMembers? ((("name", Json.text s.name) :: s.record.recordFields).map
      fun (k, v) => (some k, v)) = some s.record :=
    Record.ofMembers?_recordFields h.legible [_] (by simp)
  have name : Record.member? ((("name", Json.text s.name) :: s.record.recordFields).map
      fun (k, v) => (some k, v)) "name" = some (some (.text s.name)) := by
    by_cases none : s.record.constants.entries.isEmpty <;>
      simp [Record.recordFields, Record.constantFields, Record.member?, none]
  rw [toJson, Json.fields] at readable ⊢
  rw [ofJson?, readable, members, name]
  rfl

end SavedConstraint

def NamedConstraint.saved (c : NamedConstraint K) : SavedConstraint K :=
  ⟨c.name, c.constraint.record⟩

namespace Workbench

variable {b : Workbench K}

def saved (b : Workbench K) : List (SavedConstraint K) := b.constraints.map (·.saved)

theorem save_eq (b : Workbench K) :
    b.save = (Json.array (b.saved.map SavedConstraint.toJson)).pretty := by
  rw [save, saved, List.map_map]
  rfl

/-- Everything that was saved is read back. -/
theorem readSaved?_save (h : ∀ s ∈ b.saved, s.record.Storable) :
    readSaved? b.save = some b.saved := by
  have spelt : (Json.array (b.saved.map SavedConstraint.toJson)).all Option.isSome
      fun l => decide (Spelt l) := by
    rw [Json.all, Json.allItems_iff, List.forall_mem_map]
    intro s hs
    exact SavedConstraint.all_toJson (fun id _ => decide_eq_true (Json.spelt_ofNat id.val))
      fun x hx => decide_eq_true ((h s hs).numbers x hx).2.spelt
  have shallow : ¬maxDepth < (Json.array (b.saved.map SavedConstraint.toJson)).depth := by
    have depth : Json.itemsDepth (b.saved.map SavedConstraint.toJson) ≤ 2 :=
      Json.itemsDepth_le (List.forall_mem_map.mpr fun s _ => s.depth_toJson_le)
    rw [Json.depth, maxDepth]
    omega
  rw [save_eq, readSaved?, Json.read?_pretty spelt, Option.bind_eq_bind, Option.bind_some,
    if_neg shallow]
  exact mapM_map_eq_some fun s hs => SavedConstraint.ofJson?_toJson (h s hs)

end Workbench

end Drafting
