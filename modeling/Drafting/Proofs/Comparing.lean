import Drafting.Double
import Drafting.Proofs.Doubles
import Mathlib

namespace Drafting.Double

open Float.Model (UnpackedFloat)
open Float.Model.UnpackedFloat

/-- The place of a number among all numbers. What is missing has none and is put at zero. -/
def unpackedPlace : UnpackedFloat → ℤ ×ₗ ℤ ×ₗ ℤ
  | .notANumber | .zero _ => toLex (0, toLex (0, 0))
  | .infinity .positive => toLex (2, toLex (0, 0))
  | .infinity .negative => toLex (-2, toLex (0, 0))
  | .finite .positive m e _ => toLex (1, toLex (e, m))
  | .finite .negative m e _ => toLex (-1, toLex (-e, -m))

def place (x : Float) : ℤ ×ₗ ℤ ×ₗ ℤ := unpackedPlace x.toModel.unpack

theorem compare_neg (a b : ℤ) : compare (-a) (-b) = (compare a b).swap := by
  have anti : StrictAnti (fun z : ℤ => -z) := fun _ _ => neg_lt_neg
  rw [← cmp_eq_compare, ← cmp_eq_compare, cmp_swap]
  exact anti.cmp_map_eq a b

theorem compare_natCast (m n : ℕ) : compare (m : ℤ) n = compare m n := by
  rw [← cmp_eq_compare, ← cmp_eq_compare, Nat.strictMono_cast.cmp_map_eq]

/-- Among numbers of one sign the exponent decides, then the mantissa. -/
theorem compare_sameSign (a e e' m m' : ℤ) :
    compare (toLex (a, toLex (e, m))) (toLex (a, toLex (e', m'))) =
      (compare e e').then (compare m m') := by
  have same : compare a a = .eq := compare_eq_iff_eq.mpr rfl
  show (compare a a).then ((compare e e').then (compare m m')) = _
  rw [same]
  rfl

/-- The infinities are at the ends of the order, and both zeros at one place. -/
theorem compare_eq_place {u v : UnpackedFloat} (hu : u.isNaN = false) (hv : v.isNaN = false) :
    u.compare v = some (compare (unpackedPlace u) (unpackedPlace v)) := by
  cases u with
  | notANumber => cases hu
  | infinity s =>
    cases v with
    | notANumber => cases hv
    | infinity t => cases s <;> cases t <;> rfl
    | zero t => cases s <;> rfl
    | finite t => cases s <;> cases t <;> rfl
  | zero s =>
    cases v with
    | notANumber => cases hv
    | infinity t => cases t <;> rfl
    | zero t => rfl
    | finite t => cases t <;> rfl
  | finite s m e =>
    cases v with
    | notANumber => cases hv
    | infinity t => cases s <;> cases t <;> rfl
    | zero t => cases s <;> rfl
    | finite t m' e' =>
      cases s <;> cases t
      · simp only [UnpackedFloat.compare, unpackedPlace, compare_sameSign, compare_neg,
          compare_natCast, Ordering.swap_then]
      · rfl
      · rfl
      · simp only [UnpackedFloat.compare, unpackedPlace, compare_sameSign, compare_natCast]

theorem compare_of_isNaN {u v : UnpackedFloat} (h : u.isNaN = true ∨ v.isNaN = true) :
    u.compare v = none := by
  cases u with
  | notANumber => rfl
  | infinity | zero | finite =>
    cases v with
    | notANumber => rfl
    | infinity | zero | finite => simp [isNaN] at h

variable {x y z : Float}

/-- Doubles compare as their places do, where none of the two is missing. -/
theorem compare_unpack (x y : Float) : x.toModel.unpack.compare y.toModel.unpack =
    if x.isNaN || y.isNaN then none else some (compare (place x) (place y)) := by
  split
  · rename_i missing
    exact compare_of_isNaN (Bool.or_eq_true_iff.mp missing)
  · rename_i whole
    rw [Bool.not_eq_true, Bool.or_eq_false_iff] at whole
    exact compare_eq_place whole.1 whole.2

theorem lt_iff : Scalar.lt x y = true ↔
    x.isNaN = false ∧ y.isNaN = false ∧ place x < place y := by
  have unpacked : Scalar.lt x y = true ↔
      (x.toModel.unpack.compare y.toModel.unpack == some .lt) = true :=
    decide_eq_true_iff.trans decide_eq_true_iff
  rw [unpacked, compare_unpack]
  cases x.isNaN <;> cases y.isNaN <;> simp [compare_lt_iff_lt]

theorem le_iff : Scalar.le x y = true ↔
    x.isNaN = false ∧ y.isNaN = false ∧ place x ≤ place y := by
  have unpacked : Scalar.le x y = true ↔
      (x.toModel.unpack.compare y.toModel.unpack).any (·.isLE) = true :=
    decide_eq_true_iff.trans decide_eq_true_iff
  rw [unpacked, compare_unpack]
  cases x.isNaN <;> cases y.isNaN <;> simp [Ordering.isLE_iff_ne_gt, compare_le_iff_le]

theorem beq_iff : (x == y) = true ↔ x.isNaN = false ∧ y.isNaN = false ∧ place x = place y := by
  have unpacked : (x == y) = (x.toModel.unpack.compare y.toModel.unpack == some .eq) := rfl
  rw [unpacked, compare_unpack]
  cases x.isNaN <;> cases y.isNaN <;> simp [compare_eq_iff_eq]

theorem isNaN_abs (x : Float) : x.abs.isNaN = x.isNaN := by
  show x.abs.toModel.unpack.isNaN = x.toModel.unpack.isNaN
  rw [unpack_abs]
  cases x.toModel.unpack <;> rfl

theorem unpackedIsNaN_of_isFinite {u : UnpackedFloat} (h : u.isFinite = true) :
    u.isNaN = false := by
  cases u with
  | zero | finite => rfl
  | notANumber | infinity => cases h

theorem isNaN_eq_false_of_isFinite (h : x.isFinite = true) : x.isNaN = false :=
  unpackedIsNaN_of_isFinite h

theorem beq_self (h : x.isNaN = false) : (x == x) = true := beq_iff.mpr ⟨h, h, rfl⟩

/-- A number is no greater than another just if it is there and the other is not less. -/
theorem le_iff_not_lt (hy : y.isNaN = false) :
    Scalar.le x y = true ↔ x.isNaN = false ∧ Scalar.lt y x = false := by
  rw [le_iff, ← Bool.not_eq_true (Scalar.lt y x), lt_iff]
  constructor
  · rintro ⟨hx, -, le⟩
    exact ⟨hx, fun ⟨_, _, less⟩ => not_lt_of_ge le less⟩
  · rintro ⟨hx, not_less⟩
    exact ⟨hx, hy, not_lt.mp fun less => not_less ⟨hy, hx, less⟩⟩

/-- One double only stands for a missing value. -/
theorem eq_of_isNaN (hx : x.isNaN = true) (hy : y.isNaN = true) : x = y := by
  rw [Float.isNaN_eq_decide_eq_nan, decide_eq_true_iff] at hx hy
  exact hx.trans hy.symm

theorem unpackedAbs_inj {u v : UnpackedFloat} (hu : u.isNaN = false) (hv : v.isNaN = false)
    (same : unpackedPlace u.abs = unpackedPlace v.abs) : u.abs = v.abs := by
  cases u with
  | notANumber => cases hu
  | infinity | zero | finite =>
    cases v with
    | notANumber => cases hv
    | infinity | zero | finite => simp_all [UnpackedFloat.abs, unpackedPlace]

/-- Absolute values have no sign, so that even zeros at one place are the same. -/
theorem abs_antisymm (le : x.abs ≤ y.abs) (ge : y.abs ≤ x.abs) : x.abs = y.abs := by
  obtain ⟨hx, hy, below⟩ := le_iff.mp (decide_eq_true le)
  have same := le_antisymm below (le_iff.mp (decide_eq_true ge)).2.2
  rw [place, place, unpack_abs, unpack_abs] at same
  rw [isNaN_abs] at hx hy
  have unpacked := unpackedAbs_inj hx hy same
  rw [← unpack_abs, ← unpack_abs] at unpacked
  rw [← ofUnpacked_unpack x.abs, unpacked, ofUnpacked_unpack]

theorem abs_zero : (0 : Float).abs = 0 := by decide +kernel

theorem zero_le_abs (hx : x.isNaN = false) : (0 : Float).abs ≤ x.abs := by
  refine of_decide_eq_true (le_iff.mpr ⟨rfl, (isNaN_abs x).trans hx, ?_⟩)
  have zero : place (0 : Float).abs = toLex (0, toLex (0, 0)) := by decide +kernel
  rw [zero, place, unpack_abs]
  cases x.toModel.unpack with
  | notANumber | zero => exact le_rfl
  | infinity => exact Prod.Lex.left _ _ zero_lt_two
  | finite => exact Prod.Lex.left _ _ zero_lt_one

theorem greater_eq (hx : x.isNaN = false) (hy : y.isNaN = false) :
    Scalar.greater x y = if Scalar.lt x y then y else x := by
  show (if x.isNaN then y else if y.isNaN then x else _) = _
  rw [hx, hy]
  rfl

theorem greater_le_iff (hx : x.isNaN = false) (hy : y.isNaN = false) :
    Scalar.le (Scalar.greater x y) z = true ↔ Scalar.le x z = true ∧ Scalar.le y z = true := by
  rw [greater_eq hx hy]
  split
  · rename_i less
    have below := (lt_iff.mp less).2.2
    exact ⟨fun le => ⟨le_iff.mpr ⟨hx, (le_iff.mp le).2.1,
      below.le.trans (le_iff.mp le).2.2⟩, le⟩, And.right⟩
  · rename_i not_less
    have below := (le_iff.mp ((le_iff_not_lt hx).mpr ⟨hy, Bool.not_eq_true _ ▸ not_less⟩)).2.2
    exact ⟨fun le => ⟨le, le_iff.mpr ⟨hy, (le_iff.mp le).2.1,
      below.trans (le_iff.mp le).2.2⟩⟩, And.left⟩

variable {values values' : List Float}

def grown (acc v : Float) : Float :=
  if v.isNaN || acc.isNaN then nan else Scalar.greater acc v.abs

theorem maxAbs_eq_foldl (values : List Float) : Scalar.maxAbs values = values.foldl grown 0 := rfl

/-- A missing value keeps no bound, on either side. -/
theorem grown_le_iff (acc v bound : Float) : Scalar.le (grown acc v) bound = true ↔
    Scalar.le acc bound = true ∧ Scalar.le v.abs bound = true := by
  rw [grown]
  split
  · rename_i missing
    refine iff_of_false (fun le => absurd (le_iff.mp le).1 (by decide +kernel)) ?_
    rintro ⟨whole, added⟩
    rw [(le_iff.mp whole).1, (isNaN_abs v).symm.trans (le_iff.mp added).1] at missing
    cases missing
  · rename_i present
    rw [Bool.not_eq_true, Bool.or_eq_false_iff] at present
    exact greater_le_iff present.2 ((isNaN_abs v).trans present.1)

theorem foldl_grown_le_iff (values : List Float) (acc bound : Float) :
    Scalar.le (values.foldl grown acc) bound = true ↔
      Scalar.le acc bound = true ∧ ∀ v ∈ values, Scalar.le v.abs bound = true := by
  induction values generalizing acc with
  | nil => simp
  | cons v vs ih => rw [List.foldl_cons, ih, grown_le_iff, List.forall_mem_cons, and_assoc]

/-- The largest absolute value keeps a bound just if each of them does. -/
theorem maxAbs_le_iff {values : List Float} {bound : Float} (nonneg : Scalar.le 0 bound = true) :
    Scalar.le (Scalar.maxAbs values) bound = true ↔
      ∀ v ∈ values, Scalar.le v.abs bound = true := by
  rw [maxAbs_eq_foldl, foldl_grown_le_iff]
  exact and_iff_right nonneg

theorem grown_eq {acc v : Float} (ha : acc.isNaN = false) (hv : v.isNaN = false) :
    grown acc v = acc ∨ grown acc v = v.abs := by
  have compared : grown acc v = if Scalar.lt acc v.abs then v.abs else acc := by
    rw [grown, hv, ha]
    exact greater_eq ha ((isNaN_abs v).trans hv)
  rw [compared]
  split
  · exact .inr rfl
  · exact .inl rfl

/-- Where no value is missing, going through them ends at the start or at one of them. -/
theorem foldl_grown_eq {acc : Float} (ha : acc.isNaN = false)
    (present : ∀ v ∈ values, v.isNaN = false) : values.foldl grown acc = acc ∨
      ∃ v ∈ values, values.foldl grown acc = v.abs := by
  induction values generalizing acc with
  | nil => exact .inl rfl
  | cons v vs ih =>
    obtain ⟨hv, hvs⟩ := List.forall_mem_cons.mp present
    have kept := grown_eq ha hv
    have whole : (grown acc v).isNaN = false := by
      rcases kept with same | grew
      · rw [same, ha]
      · rw [grew, isNaN_abs, hv]
    rw [List.foldl_cons]
    rcases ih whole hvs with last | ⟨w, hw, later⟩
    · rw [last]
      exact kept.imp_right fun grew => ⟨v, by simp, grew⟩
    · exact .inr ⟨w, List.mem_cons_of_mem v hw, later⟩

theorem exists_maxAbs_eq (present : ∀ v ∈ values, v.isNaN = false) :
    ∃ v ∈ 0 :: values, Scalar.maxAbs values = v.abs := by
  have whole : (0 : Float).isNaN = false := rfl
  rcases foldl_grown_eq whole present with start | ⟨v, hv, one⟩
  · exact ⟨0, by simp, start.trans abs_zero.symm⟩
  · exact ⟨v, List.mem_cons_of_mem 0 hv, one⟩

/-- A largest absolute value that is not missing is a bound, as it keeps itself as a bound. -/
theorem abs_le_maxAbs (present : (Scalar.maxAbs values).isNaN = false) :
    ∀ v ∈ 0 :: values, v.abs ≤ Scalar.maxAbs values := by
  have self : Scalar.le (values.foldl grown 0) (values.foldl grown 0) = true :=
    le_iff.mpr ⟨present, present, le_rfl⟩
  obtain ⟨start, bounds⟩ := (foldl_grown_le_iff values 0 _).mp self
  refine List.forall_mem_cons.mpr ⟨?_, fun v hv => of_decide_eq_true (bounds v hv)⟩
  rw [abs_zero]
  exact of_decide_eq_true start

/-- A missing value stays, wherever it stands, since a step from it or to it is missing. -/
theorem isNaN_maxAbs_iff : (Scalar.maxAbs values).isNaN = true ↔ ∃ v ∈ values, v.isNaN = true := by
  constructor
  · intro missing
    by_contra none
    have present : ∀ v ∈ values, v.isNaN = false := by
      intro v hv
      rw [← Bool.not_eq_true]
      exact fun lost => none ⟨v, hv, lost⟩
    obtain ⟨v, hv, one⟩ := exists_maxAbs_eq present
    have whole : ∀ w ∈ 0 :: values, w.isNaN = false := List.forall_mem_cons.mpr ⟨rfl, present⟩
    rw [one, isNaN_abs, whole v hv] at missing
    cases missing
  · rintro ⟨v, hv, missing⟩
    by_contra present
    have bound := abs_le_maxAbs (Bool.not_eq_true _ ▸ present) v (List.mem_cons_of_mem 0 hv)
    have whole := (le_iff.mp (decide_eq_true bound)).1
    rw [isNaN_abs, missing] at whole
    cases whole

theorem present_of_maxAbs (present : (Scalar.maxAbs values).isNaN = false) :
    ∀ v ∈ values, v.isNaN = false := by
  intro v hv
  by_contra missing
  have lost := isNaN_maxAbs_iff.mpr ⟨v, hv, Bool.not_eq_false _ ▸ missing⟩
  rw [present] at lost
  cases lost

/-- Of some values one has the largest absolute value, which is at least that of zero. -/
theorem exists_maxAbs_eq_of_ne_nil (present : (Scalar.maxAbs values).isNaN = false)
    (some : values ≠ []) : ∃ v ∈ values, Scalar.maxAbs values = v.abs := by
  have whole := present_of_maxAbs present
  obtain ⟨v, hv, one⟩ := exists_maxAbs_eq whole
  rcases List.mem_cons.mp hv with rfl | hv
  · obtain ⟨w, hw⟩ := List.exists_mem_of_ne_nil values some
    have bound := abs_le_maxAbs present w (List.mem_cons_of_mem 0 hw)
    rw [one] at bound
    exact ⟨w, hw, one.trans (abs_antisymm (zero_le_abs (whole w hw)) bound)⟩
  · exact ⟨v, hv, one⟩

theorem maxAbs_le_of_subset (present : (Scalar.maxAbs values').isNaN = false)
    (subset : values ⊆ values') : Scalar.maxAbs values ≤ Scalar.maxAbs values' := by
  have whole : ∀ v ∈ values, v.isNaN = false := fun v hv => present_of_maxAbs present v (subset hv)
  obtain ⟨v, hv, one⟩ := exists_maxAbs_eq whole
  rw [one]
  exact abs_le_maxAbs present v (List.cons_subset_cons 0 subset hv)

/-- Neither the order of the values counts nor how often one is there. -/
theorem maxAbs_congr (same : ∀ v, v ∈ values ↔ v ∈ values') :
    Scalar.maxAbs values = Scalar.maxAbs values' := by
  have missing : (Scalar.maxAbs values).isNaN = (Scalar.maxAbs values').isNaN := by
    rw [Bool.eq_iff_iff, isNaN_maxAbs_iff, isNaN_maxAbs_iff]
    exact exists_congr fun v => and_congr_left fun _ => same v
  cases present : (Scalar.maxAbs values').isNaN with
  | true => exact eq_of_isNaN (missing.trans present) present
  | false =>
    have le := maxAbs_le_of_subset present fun v => (same v).mp
    have ge := maxAbs_le_of_subset (missing.trans present) fun v => (same v).mpr
    obtain ⟨v, -, one⟩ := exists_maxAbs_eq (present_of_maxAbs (missing.trans present))
    obtain ⟨w, -, one'⟩ := exists_maxAbs_eq (present_of_maxAbs present)
    rw [one, one'] at le ge ⊢
    exact abs_antisymm le ge

/-- The largest absolute value is missing just if some value is, wherever that stands. Otherwise it
is at least the absolute value of each, and that of one of them, or zero where there are none. The
order of the values does not count. -/
theorem maxAbs_greatest (values : List Float) :
    ((Scalar.maxAbs values).isNaN = true ↔ ∃ v ∈ values, v.isNaN = true) ∧
    ((Scalar.maxAbs values).isNaN = false →
      (∀ v ∈ values, v.abs ≤ Scalar.maxAbs values) ∧
      (values = [] ∧ Scalar.maxAbs values = 0 ∨ ∃ v ∈ values, Scalar.maxAbs values = v.abs)) ∧
    ∀ values', values.Perm values' → Scalar.maxAbs values' = Scalar.maxAbs values := by
  refine ⟨isNaN_maxAbs_iff, fun present => ⟨fun v hv => ?_, ?_⟩, fun values' moved => ?_⟩
  · exact abs_le_maxAbs present v (List.mem_cons_of_mem 0 hv)
  · rcases eq_or_ne values [] with rfl | some
    · exact .inl ⟨rfl, rfl⟩
    · exact .inr (exists_maxAbs_eq_of_ne_nil present some)
  · exact maxAbs_congr fun v => moved.symm.mem_iff

theorem maxAbs_greatest_mixed :
    (∀ v ∈ [0.5, -2, 1], v.abs ≤ Scalar.maxAbs [0.5, -2, 1]) ∧
      Scalar.maxAbs [0.5, 1, -2] = Scalar.maxAbs [0.5, -2, (1 : Float)] ∧
      (Scalar.maxAbs [1, nan, 3]).isNaN = true := by
  obtain ⟨-, whole, moved⟩ := maxAbs_greatest [0.5, -2, 1]
  refine ⟨(whole (by decide +kernel)).1, moved _ (.cons _ (.swap _ _ _)), ?_⟩
  exact (maxAbs_greatest [1, nan, 3]).1.mpr ⟨nan, by simp, by decide +kernel⟩

end Drafting.Double
