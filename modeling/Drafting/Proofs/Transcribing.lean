import Drafting.Proofs.Scaling
import Drafting.Proofs.Recording

namespace Drafting

open Constant (Raw)
open Decimal (Literal Expansion Span Binary Tie Layout)
open Json (Spelt)

namespace Decimal

theorem Expansion.ofPower_pos {m : Nat} (pos : 0 < m) (e : Int) :
    0 < (Expansion.ofPower m e).coefficient := by
  rw [Expansion.ofPower]
  split
  · exact Nat.mul_pos pos (Nat.pow_pos (by decide))
  · exact Nat.mul_pos pos (Nat.pow_pos (by decide))

/-- A multiple that is chosen lies in the span. -/
theorem Span.holds_onGrid {s : Span} {tie : Tie} {grid n : Nat} (h : s.onGrid tie grid = some n) :
    s.holds (n * grid) := by
  rw [onGrid.eq_def] at h
  dsimp only at h
  split at h
  · cases h
  · rename_i low _
    exact Option.some.inj h ▸ low
  · rename_i high
    exact Option.some.inj h ▸ high
  · rename_i low high
    split at h
    · exact Option.some.inj h ▸ low
    · exact Option.some.inj h ▸ high
    · split at h
      · exact Option.some.inj h ▸ high
      · split at h
        · exact Option.some.inj h ▸ low
        · exact Option.some.inj h ▸ high

theorem Span.coarsest_pos {s : Span} (tie : Tie) (low : 0 < s.low) (value : 0 < s.value)
    (high : 0 < s.high) (k : Nat) : 0 < (s.coarsest tie k).1 := by
  induction k with
  | zero => exact value
  | succ k ih =>
    rw [coarsest]
    split
    · rename_i n chosen
      have inside := holds_onGrid chosen
      refine Nat.pos_of_ne_zero fun zero => ?_
      have none : n = 0 := zero
      simp only [none, Nat.zero_mul, holds, Bool.or_eq_true, Bool.and_eq_true, decide_eq_true_iff,
        beq_iff_eq] at inside
      omega
    · exact ih

theorem Binary.shortest_pos {b : Binary} (pos : 0 < b.mantissa) (tie : Tie) :
    0 < (b.shortest tie).coefficient := by
  rw [shortest]
  refine Span.coarsest_pos tie ?_ (Expansion.ofPower_pos (by omega) _)
    (Expansion.ofPower_pos (by omega) _) _
  refine Expansion.ofPower_pos ?_ _
  split <;> omega

/-- Digits that do not start with a zero. -/
structure Leading (ds : List Char) : Prop where
  nonempty : ds ≠ []
  first : ds.head? ≠ some '0'
  digits : ∀ d ∈ ds, d.isDigit

theorem leading_toDigits {n : Nat} (pos : 0 < n) : Leading (Nat.toDigits 10 n) :=
  ⟨Nat.toDigits_ne_nil, head_toDigits pos,
    fun _ hd => Nat.isDigit_of_mem_toDigits (by decide) (by decide) hd⟩

theorem Leading.of_prefix {ds es : List Char} (h : Leading es) (front : ds <+: es)
    (nonempty : ds ≠ []) : Leading ds where
  nonempty := nonempty
  first := by
    obtain ⟨rest, rfl⟩ := front
    rw [← List.head?_append_of_ne_nil _ nonempty]
    exact h.first
  digits := fun d hd => h.digits d (front.subset hd)

theorem Leading.append {ds es : List Char} (h : Leading ds) (others : ∀ e ∈ es, e.isDigit) :
    Leading (ds ++ es) where
  nonempty := List.append_ne_nil_of_left_ne_nil h.nonempty es
  first := by
    rw [List.head?_append_of_ne_nil _ h.nonempty]
    exact h.first
  digits := List.forall_mem_append.mpr ⟨h.digits, others⟩

/-- A first digit that is not a zero stays where zeros at the end are left out. -/
theorem Leading.trim {ds : List Char} (h : Leading ds) : Leading (Layout.trim ds) := by
  have same : Layout.trim ds = ds.rdropWhile (· == '0') := rfl
  rw [same]
  refine h.of_prefix (List.rdropWhile_prefix _ _) fun none => ?_
  have zeros := List.rdropWhile_eq_nil_iff.mp none
  obtain ⟨d, es, rfl⟩ := List.exists_cons_of_ne_nil h.nonempty
  have zero := eq_of_beq (zeros d List.mem_cons_self)
  exact h.first (congrArg some zero)

theorem isDigit_replicate (n : Nat) : ∀ d ∈ List.replicate n '0', d.isDigit := by
  intro d hd
  rw [List.eq_of_mem_replicate hd]
  rfl

theorem Layout.spelt_exponent (l : Layout) (power : Int) :
    (l.exponent power).digits ≠ [] ∧ ∀ d ∈ (l.exponent power).digits, d.isDigit :=
  ⟨Nat.toDigits_ne_nil, fun _ hd => Nat.isDigit_of_mem_toDigits (by decide) (by decide) hd⟩

/-- Whichever layout is chosen, digits stand where there must be some. -/
theorem Layout.spelt_literal (l : Layout) (negative : Bool) {b : Binary} (pos : 0 < b.mantissa) :
    Spelt (l.literal negative (.positive b)) := by
  have lead := (leading_toDigits (b.shortest_pos pos l.tie)).trim
  have rest : ∀ n, ∀ d ∈ (Layout.trim (b.shortest l.tie).digits).drop n, d.isDigit :=
    fun n d hd => lead.digits d (List.mem_of_mem_drop hd)
  have start : ∀ n, 0 < n → Leading ((Layout.trim (b.shortest l.tie).digits).take n) :=
    fun n some => lead.of_prefix (List.take_prefix _ _) fun none =>
      (List.take_eq_nil_iff.mp none).elim (Nat.ne_of_gt some) lead.nonempty
  rw [Layout.literal]
  dsimp only
  split
  · rw [Layout.around]
    dsimp only
    split
    · exact ⟨.inl rfl, List.forall_mem_append.mpr ⟨isDigit_replicate _, lead.digits⟩, by simp⟩
    · rename_i point
      have whole := (start (b.shortest l.tie).point.toNat (by omega)).append (isDigit_replicate
        ((b.shortest l.tie).point.toNat - (Layout.trim (b.shortest l.tie).digits).length))
      refine ⟨.inr ⟨whole.nonempty, whole.first, whole.digits⟩, ?_, by simp⟩
      dsimp only
      split
      · simp
      · exact rest _
  · have whole := start 1 (by decide)
    exact ⟨.inr ⟨whole.nonempty, whole.first, whole.digits⟩, rest 1,
      fun e he => Option.mem_some.mp he ▸ l.spelt_exponent _⟩

end Decimal

/-- What is stored of a double is a number of digits. -/
theorem Double.spelt_storedLiteral (x : Float) : Spelt (Double.storedLiteral x) := by
  have zero : ∀ negative, Spelt (Double.storedLayout.literal negative .zero) :=
    fun _ => ⟨.inl rfl, List.forall_mem_singleton.mpr rfl, by simp [Layout.literal]⟩
  rw [Double.storedLiteral, Double.parts]
  cases x.toModel.unpack with
  | finite s m e pos => exact Layout.spelt_literal _ _ pos
  | zero s => exact zero _
  | notANumber | infinity => exact zero _

theorem exists_of_mapM {α β : Type} {f : α → Option β} {as : List α} {bs : List β}
    (h : as.mapM f = some bs) : ∀ b ∈ bs, ∃ a ∈ as, f a = some b := by
  induction as generalizing bs with
  | nil =>
    cases h
    exact List.forall_mem_nil _
  | cons a as ih =>
    rw [List.mapM_cons] at h
    obtain ⟨b, first, h⟩ := Option.bind_eq_some_iff.mp h
    obtain ⟨cs, others, h⟩ := Option.bind_eq_some_iff.mp h
    cases h
    refine List.forall_mem_cons.mpr ⟨⟨a, List.mem_cons_self, first⟩, fun c hc => ?_⟩
    obtain ⟨d, hd, read⟩ := ih others c hc
    exact ⟨d, List.mem_cons_of_mem a hd, read⟩

namespace Record

variable {r : Record Float}

theorem val_of_objectId? {j : Json} {id : ObjectId} (h : objectId? j = some id) :
    id.val < Nat.pow 2 32 := by
  cases j with
  | number l =>
    rw [objectId?] at h
    split at h
    · rename_i fits
      cases h
      exact of_decide_eq_true (Bool.and_eq_true_iff.mp fits).2
    · cases h
  | _ => cases h

theorem val_of_objectIds? {j : Json} {ids : List ObjectId} (h : objectIds? j = some ids) :
    ∀ id ∈ ids, id.val < Nat.pow 2 32 := by
  cases j with
  | array items =>
    intro id hid
    obtain ⟨item, -, read⟩ := exists_of_mapM h id hid
    exact val_of_objectId? read
  | _ => cases h

/-- Numbers that are read are finite. -/
theorem isFinite_of_raw? {j : Json} {x : Float} (h : raw? j = some (.number x)) : x.isFinite := by
  cases j with
  | number l =>
    obtain ⟨y, read, same⟩ := Option.map_eq_some_iff.mp h
    cases same
    exact Double.isFinite_ofLiteral? read
  | string s => cases s <;> cases h
  | _ => cases h

theorem isFinite_of_constants? {j : Json} {t : Table (Raw Float)} (h : constants? j = some t)
    {name : String} {x : Float} (hx : (name, Raw.number x) ∈ t.entries) : x.isFinite := by
  cases j with
  | object members =>
    obtain ⟨entries, read, h⟩ := Option.bind_eq_some_iff.mp h
    cases h
    obtain ⟨m, -, entry⟩ := exists_of_mapM read _ (Table.mem_of_mem_ofList hx)
    obtain ⟨k, -, entry⟩ := Option.bind_eq_some_iff.mp entry
    obtain ⟨raw, value, entry⟩ := Option.bind_eq_some_iff.mp entry
    cases entry
    exact isFinite_of_raw? value
  | _ => cases h

/-- What a record is built of when it is read, from an object or from an array. -/
theorem exists_build {j : Json} (h : ofJson? j = some r) :
    ∃ typeId objects constants, build? typeId objects constants = some r := by
  rw [ofJson?.eq_def] at h
  split at h
  · rename_i members
    rw [ofMembers?] at h
    split at h
    · cases h
    obtain ⟨typeId, -, h⟩ := Option.bind_eq_some_iff.mp h
    obtain ⟨objects, -, h⟩ := Option.bind_eq_some_iff.mp h
    obtain ⟨constants, -, h⟩ := Option.bind_eq_some_iff.mp h
    obtain ⟨typeId, -, h⟩ := Option.bind_eq_some_iff.mp h
    obtain ⟨objects, -, h⟩ := Option.bind_eq_some_iff.mp h
    exact ⟨_, _, _, h⟩
  · exact ⟨_, _, _, h⟩
  · exact ⟨_, _, _, h⟩
  · cases h

/-- Whatever a record is read from, its objects have numbers of 32 bits and its numbers are
finite. -/
theorem legible_of_build {typeId objects : Json} {constants : Option Json}
    (h : build? typeId objects constants = some r) :
    (∀ id ∈ r.objects, id.val < Nat.pow 2 32) ∧ ∀ x, r.Gives x → x.isFinite := by
  obtain ⟨name, -, h⟩ := Option.bind_eq_some_iff.mp h
  obtain ⟨ids, listed, h⟩ := Option.bind_eq_some_iff.mp h
  cases constants with
  | none =>
    cases h
    exact ⟨val_of_objectIds? listed, fun x ⟨_, hx⟩ => absurd hx List.not_mem_nil⟩
  | some c =>
    obtain ⟨t, read, h⟩ := Option.bind_eq_some_iff.mp h
    cases h
    exact ⟨val_of_objectIds? listed, fun x ⟨_, hx⟩ => isFinite_of_constants? read hx⟩

/-- A record of finite numbers is read back from what is written of it, whatever texts it holds, as
long as each number is read back from its digits; so is every record that was read from a text. -/
theorem write_reads_back :
    (∀ r : Record Float, (∀ id ∈ r.objects, id.val < Nat.pow 2 32) →
      (∀ x, r.Gives x → x.isFinite ∧ Written.ofLiteral? (Written.literal x) = some x) →
        read? r.write = some r) ∧
    ∀ (text : String) (r : Record Float), read? text = some r →
      (∀ x, r.Gives x → Written.ofLiteral? (Written.literal x) = some x) →
        read? r.write = some r := by
  have written : ∀ r : Record Float, (∀ id ∈ r.objects, id.val < Nat.pow 2 32) →
      (∀ x, r.Gives x → x.isFinite ∧ Written.ofLiteral? (Written.literal x) = some x) →
        read? r.write = some r := by
    intro r objects numbers
    refine read?_write ⟨objects, fun x hx => ?_⟩
    obtain ⟨finite, back⟩ := numbers x hx
    exact ⟨finite, Double.spelt_storedLiteral x, back⟩
  refine ⟨written, fun text r h back => ?_⟩
  obtain ⟨j, -, h⟩ := Option.bind_eq_some_iff.mp h
  obtain ⟨typeId, objects, constants, h⟩ := exists_build h
  obtain ⟨known, finite⟩ := legible_of_build h
  exact written r known fun x hx => ⟨finite x hx, back x hx⟩

def remark : Record Float :=
  ⟨"no \"such\" kind\\\t\x01π", [⟨4294967295⟩, ⟨0⟩, ⟨0⟩],
    .ofList [("distance", .number 2.5), ("", .flag true), ("far\n", .text "1e3 + ½")]⟩

/-- A record that was not written here: an array, with one name given twice. -/
def row : Json :=
  .array [.text "PCoincident",
    .array [.number ⟨false, ['2'], [], none⟩, .number ⟨false, ['3'], [], none⟩],
    .object [(some "a", .bool true), (some "a", .number ⟨true, ['5'], [], some ⟨.minus, ['1']⟩⟩)]]

/-- What is read of the array. -/
def ofRow : Record Float := ⟨"PCoincident", [⟨2⟩, ⟨3⟩], .ofList [("a", .number (-0.5))]⟩

theorem read?_row : read? row.pretty = some ofRow := by
  have spelt : row.all Option.isSome fun l => decide (Spelt l) := by decide +kernel
  have objects : objectIds? (.array [.number ⟨false, ['2'], [], none⟩,
      .number ⟨false, ['3'], [], none⟩]) = some [⟨2⟩, ⟨3⟩] := by decide
  have number : Written.ofLiteral? (K := Float) ⟨true, ['5'], [], some ⟨.minus, ['1']⟩⟩ =
      some (-0.5) := by decide +kernel
  have constants : constants? (.object [(some "a", .bool true),
      (some "a", .number ⟨true, ['5'], [], some ⟨.minus, ['1']⟩⟩)]) = some ofRow.constants := by
    simp only [constants?, List.mapM_cons, List.mapM_nil, raw?, number]
    rfl
  rw [read?, Json.read?_pretty spelt, Option.bind_eq_bind, Option.bind_some, row, ofJson?, build?,
    objects]
  simp only [typeId?, Json.text, constants]
  rfl

theorem write_reads_back_remark :
    read? remark.write = some remark ∧
    read? row.pretty = some ofRow ∧ read? ofRow.write = some ofRow := by
  have given : ∀ x, remark.Gives x → x = 2.5 := by
    rintro x ⟨name, hx⟩
    have entries : remark.constants.entries =
      [("", .flag true), ("distance", .number 2.5), ("far\n", .text "1e3 + ½")] := rfl
    rw [entries] at hx
    simp only [List.mem_cons, Prod.mk.injEq, reduceCtorEq, and_false, Raw.number.injEq,
      List.not_mem_nil, or_false, false_or] at hx
    exact hx.2
  have half : ∀ x, ofRow.Gives x → x = -0.5 := by
    rintro x ⟨name, hx⟩
    exact Raw.number.inj (Prod.mk.inj (List.mem_singleton.mp hx)).2
  refine ⟨write_reads_back.1 remark (by decide) fun x hx => ?_, read?_row,
    write_reads_back.2 _ ofRow read?_row fun x hx => ?_⟩
  · rw [given x hx]
    decide +kernel
  · rw [half x hx]
    decide +kernel

end Record

end Drafting
