import Drafting.Proofs.Doubles

namespace Drafting.Double

open Float.Model (UnpackedFloat Format totalExponent)
open Float.Model.UnpackedFloat
open Decimal (Literal)

theorem log2_le_of_le {m n : Nat} (h : m ≤ n) : m.log2 ≤ n.log2 := by
  rw [Nat.log2_eq_log_two, Nat.log2_eq_log_two]
  exact Nat.log_mono_right h

theorem log2_div_add_le {m k : Nat} (some : m / 2 ^ k ≠ 0) : (m / 2 ^ k).log2 + k ≤ m.log2 := by
  have nonzero : m ≠ 0 := by
    rintro rfl
    simp at some
  rw [Nat.le_log2 nonzero, Nat.pow_add]
  exact (Nat.le_div_iff_mul_le (Nat.two_pow_pos k)).mp (Nat.log2_self_le some)

theorem log2_succ_le (m : Nat) : (m + 1).log2 ≤ m.log2 + 1 := by
  have less : m < 2 ^ (m.log2 + 1) := Nat.lt_log2_self
  rw [← Nat.log2_two_pow (n := m.log2 + 1)]
  exact log2_le_of_le less

theorem log2_mul_two_pow_le (m k : Nat) : (m * 2 ^ k).log2 ≤ m.log2 + k := by
  by_cases none : m = 0
  · simp [none]
  · have some : m * 2 ^ k ≠ 0 := Nat.mul_ne_zero none (Nat.ne_of_gt (Nat.two_pow_pos k))
    refine Nat.le_of_lt_succ ((Nat.log2_lt some).mpr ?_)
    calc m * 2 ^ k < 2 ^ (m.log2 + 1) * 2 ^ k :=
          Nat.mul_lt_mul_of_pos_right Nat.lt_log2_self (Nat.two_pow_pos k)
      _ = 2 ^ (m.log2 + k + 1) := by rw [← Nat.pow_add, Nat.add_right_comm]

theorem log2_mul_lt (m n : Nat) : (m * n).log2 < m.log2 + 1 + (n.log2 + 1) := by
  by_cases none : m * n = 0
  · simp [none]
  · refine (Nat.log2_lt none).mpr ?_
    rw [Nat.pow_add]
    exact Nat.mul_lt_mul'' Nat.lt_log2_self Nat.lt_log2_self

/-- Zero, or finite with an exponent of at most `t`. -/
def Bounded (t : Int) : UnpackedFloat → Prop
  | .zero _ => True
  | .finite _ _ e _ => e ≤ t
  | _ => False

instance (t : Int) : DecidablePred (Bounded t)
  | .zero _ => inferInstanceAs (Decidable True)
  | .finite _ _ e _ => inferInstanceAs (Decidable (e ≤ t))
  | .notANumber | .infinity _ => inferInstanceAs (Decidable False)

section Bounds

variable {t e : Int} {m : Nat} {s : Sign} {u : UnpackedFloat}

theorem Bounded.mono {t' : Int} (le : t ≤ t') (h : Bounded t u) : Bounded t' u := by
  cases u with
  | finite s m e pos => exact Int.le_trans h le
  | _ => exact h

theorem Bounded.isFinite (h : Bounded t u) : u.isFinite := by
  cases u with
  | zero | finite => rfl
  | notANumber | infinity => exact h.elim

theorem mantissa_shiftRight (em : ExtendedMantissa) (k : Nat) :
    (em >>> k).mantissa = em.mantissa / 2 ^ k := by
  induction k with
  | zero => simp [HShiftRight.hShiftRight, Nat.repeat]
  | succ k ih =>
    have step : em >>> (k + 1) = (em >>> k).shiftRightOne := rfl
    rw [step, ExtendedMantissa.shiftRightOne, ih, Nat.div_div_eq_div_mul, Nat.pow_succ]

theorem mantissa_ofMantissa (m : Nat) (a : Accuracy) :
    (ExtendedMantissa.ofMantissaAndAccuracy m a).mantissa = m := by
  cases a with
  | exact => rfl
  | inexact o => cases o <;> rfl

/-- A mantissa is rounded to itself or to the next one. -/
theorem roundedMantissa_le (em : ExtendedMantissa) :
    em.mantissa ≤ em.roundedMantissa ∧ em.roundedMantissa ≤ em.mantissa + 1 := by
  have half : em.mantissa % 2 ≤ 1 := Nat.le_of_lt_succ (Nat.mod_lt _ (by decide))
  rw [ExtendedMantissa.roundedMantissa]
  cases em.accuracy with
  | exact => exact ⟨Nat.le_refl _, Nat.le_succ _⟩
  | inexact o =>
    cases o with
    | lt => exact ⟨Nat.le_refl _, Nat.le_succ _⟩
    | eq => exact ⟨Nat.le_add_right _ _, Nat.add_le_add_left half _⟩
    | gt => exact ⟨Nat.le_succ _, Nat.le_refl _⟩

/-- Shifting to the target exponent only raises the exponent. -/
theorem shiftToTargetExponent_eq (m : Nat) (e : Int) (a : Accuracy) :
    ∃ k : Nat, (shiftToTargetExponent .binary64 m e a).1.mantissa = m / 2 ^ k ∧
      (shiftToTargetExponent .binary64 m e a).2 = e + k ∧
      e + k = max e (max ((m.log2 : Int) + 1 + e - 53) (-1074)) := by
  refine ⟨(max ((m.log2 : Int) + 1 + e - 53) (-1074) - e).toNat, ?_, rfl, by omega⟩
  rw [shiftToTargetExponent, shiftToExponent, mantissa_shiftRight, mantissa_ofMantissa]
  rfl

/-- The place of the leading bit bounds the exponent after rounding. -/
theorem bounded_round (a : Accuracy) (total : totalExponent m e ≤ t) (least : -1074 ≤ t) :
    Bounded t (roundWithAccuracy .binary64 s m e a) := by
  rw [totalExponent] at total
  obtain ⟨k, mantissa, exponent, raised⟩ := shiftToTargetExponent_eq m e a
  have rounded := (roundedMantissa_le (shiftToTargetExponent .binary64 m e a).1).2
  rw [mantissa] at rounded
  have carried := Nat.le_trans (log2_le_of_le rounded) (log2_succ_le (m / 2 ^ k))
  obtain ⟨l, -, last, final⟩ := shiftToTargetExponent_eq
    (shiftToTargetExponent .binary64 m e a).1.roundedMantissa (e + k) .exact
  unfold roundWithAccuracy
  dsimp only
  rw [exponent]
  split_ifs
  · trivial
  · rw [Bounded, last]
    by_cases none : m / 2 ^ k = 0
    · rw [none, Nat.log2_zero] at carried
      omega
    · have shifted := log2_div_add_le none
      omega

/-- A number of more than 53 bits is rounded to one of 53 bits. -/
theorem full_round (a : Accuracy) (long : 53 ≤ m.log2) (least : -1021 ≤ totalExponent m e) :
    ∃ m' e' pos, roundWithAccuracy .binary64 s m e a = .finite s m' e' pos ∧ 2 ^ 52 ≤ m' ∧
      m' < 2 ^ 53 ∧ totalExponent m e - 53 ≤ e' ∧ e' ≤ totalExponent m e - 52 := by
  rw [totalExponent] at least ⊢
  obtain ⟨k, mantissa, exponent, raised⟩ := shiftToTargetExponent_eq m e a
  have shift : k + 52 = m.log2 := by omega
  have some : m ≠ 0 := by
    rintro rfl
    exact absurd long (by decide)
  have low : 2 ^ 52 ≤ m / 2 ^ k := by
    rw [Nat.le_div_iff_mul_le (Nat.two_pow_pos k), ← Nat.pow_add, Nat.add_comm, shift]
    exact Nat.log2_self_le some
  have high : m / 2 ^ k < 2 ^ 53 := by
    rw [Nat.div_lt_iff_lt_mul (Nat.two_pow_pos k), ← Nat.pow_add,
      show 53 + k = m.log2 + 1 by omega]
    exact Nat.lt_log2_self
  obtain ⟨below, above⟩ := roundedMantissa_le (shiftToTargetExponent .binary64 m e a).1
  rw [mantissa] at below above
  obtain ⟨l, last, final, carried⟩ := shiftToTargetExponent_eq
    (shiftToTargetExponent .binary64 m e a).1.roundedMantissa (e + k) .exact
  generalize rounded : (shiftToTargetExponent .binary64 m e a).1.roundedMantissa = r at *
  -- only the power of two itself has one bit more
  have kept : 2 ^ 52 ≤ r / 2 ^ l ∧ r / 2 ^ l < 2 ^ 53 ∧ l ≤ 1 := by
    rcases Nat.lt_or_ge r (2 ^ 53) with less | full
    · rw [log2_full (Nat.le_trans low below) less] at carried
      obtain rfl : l = 0 := by omega
      rw [Nat.pow_zero, Nat.div_one]
      exact ⟨Nat.le_trans low below, less, by decide⟩
    · obtain rfl : r = 2 ^ 53 := by omega
      rw [Nat.log2_two_pow] at carried
      obtain rfl : l = 1 := by omega
      decide
  have nonzero : r / 2 ^ l ≠ 0 := by omega
  refine ⟨r / 2 ^ l, e + k + l, Nat.pos_of_ne_zero nonzero, ?_, kept.1, kept.2.1, by omega,
    by omega⟩
  unfold roundWithAccuracy
  dsimp only
  simp only [exponent, rounded, last, final]
  rw [dif_neg nonzero]

theorem bounded_packComponents {c : BitVec 11} (d : BitVec 52) (below : c.toNat < 2047)
    (bound : (c.toNat : Int) - 1075 ≤ t) (least : -1074 ≤ t) :
    Bounded t (unpack .binary64 (packComponents .binary64 s c d)) := by
  have finite : c ≠ -1#11 := by
    rintro rfl
    exact absurd below (by decide)
  rw [unpack]
  simp only [unpackMantissa_packComponents, unpackExponent_packComponents, if_neg finite]
  split_ifs with none
  · trivial
  · have zero : c.toNat = 0 := congrArg BitVec.toNat none
    rw [Bounded, bias_eq]
    omega
  · rw [Bounded, bias_eq, width_eq]
    omega

theorem unpack_packedInfinity (s : Sign) :
    unpack .binary64 (packedInfinity .binary64 s) = .infinity s := by
  cases s <;> rfl

/-- A finite number is packed as a finite one, or as an infinity if its exponent is too great. -/
theorem unpack_pack_finite {pos : 0 < m} :
    (971 < e ∧ (unpack .binary64 (pack .binary64 (.finite s m e pos))).isInf) ∨
      ∀ t, e ≤ t → -1074 ≤ t →
        Bounded t (unpack .binary64 (pack .binary64 (.finite s m e pos))) := by
  have biased := toNat_biased e
  simp only [pack, biased]
  by_cases great : 2 ^ Format.binary64.exponentBits ≤ (e + 1075).toNat + 1
  · have bits : 2 ^ Format.binary64.exponentBits = 2048 := rfl
    refine .inl ⟨by omega, ?_⟩
    rw [if_pos great, unpack_packedInfinity]
    rfl
  · have bits : 2 ^ Format.binary64.exponentBits = 2048 := rfl
    refine .inr fun t bound least => ?_
    rw [if_neg great]
    split_ifs
    · have exponent : (BitVec.ofNat 11 (e + 1075).toNat).toNat = (e + 1075).toNat := by
        rw [BitVec.toNat_ofNat, Nat.mod_eq_of_lt (by omega)]
      exact bounded_packComponents _ (by omega) (by omega) least
    · exact bounded_packComponents (c := 0) _ (by decide) (by simp; omega) least

/-- What is bounded within the range of the doubles is still so once it is packed. -/
theorem Bounded.unpack_pack (h : Bounded t u) (least : -1074 ≤ t) (greatest : t ≤ 971) :
    Bounded t (unpack .binary64 (pack .binary64 u)) := by
  cases u with
  | zero s => cases s <;> trivial
  | finite s m e pos =>
    rcases unpack_pack_finite (s := s) (m := m) (e := e) with ⟨great, -⟩ | bounded
    · exact absurd (Int.lt_of_lt_of_le great (Int.le_trans h greatest)) (Int.lt_irrefl _)
    · exact bounded t h least
  | notANumber | infinity => exact h.elim

def isWide : UnpackedFloat → Bool
  | .finite _ _ e _ => -52 ≤ e
  | _ => false

theorem isFinite_of_isWide (h : isWide u) : u.isFinite := by
  cases u with
  | finite => rfl
  | zero | notANumber | infinity => cases h

theorem bits_of_unpack {x : Float} {pos : 0 < m} (h : x.toModel.unpack = .finite s m e pos) :
    m < 2 ^ 53 := (canonical_of_unpack h).bits

theorem unpack_div (x y : Float) : (x / y).toModel.unpack =
    unpack .binary64 (pack .binary64 (.div .binary64 x.toModel.unpack y.toModel.unpack)) := rfl

theorem unpack_mul (x y : Float) : (x * y).toModel.unpack =
    unpack .binary64 (pack .binary64 (.mul .binary64 x.toModel.unpack y.toModel.unpack)) := rfl

/-- Dividing by a number that is not small raises the exponent by little. -/
theorem bounded_div {x y : Float} (hx : Bounded t x.toModel.unpack) (hy : isWide y.toModel.unpack)
    (least : -1074 ≤ t) (greatest : t + 105 ≤ 971) : Bounded (t + 105) (x / y).toModel.unpack := by
  rw [unpack_div]
  refine Bounded.unpack_pack ?_ (by omega) greatest
  cases divisor : y.toModel.unpack with
  | finite s' m' e' pos' =>
    rw [divisor] at hy
    have wide : -52 ≤ e' := of_decide_eq_true hy
    cases dividend : x.toModel.unpack with
    | zero s => trivial
    | finite s m e pos =>
      rw [dividend] at hx
      have bits : m.log2 < 53 := (Nat.log2_lt (Nat.ne_of_gt pos)).mpr (bits_of_unpack dividend)
      have bound : e ≤ t := hx
      refine bounded_round _ ?_ (by omega)
      have quotient := Nat.le_trans (log2_le_of_le (Nat.div_le_self _ m'))
        (log2_mul_two_pow_le m (e - e' - min (e - e')
          (Format.binary64.targetExponent (totalExponent m e - totalExponent m' e'))).toNat)
      simp only [totalExponent, Nat.shiftLeft_eq] at quotient ⊢
      omega
    | notANumber | infinity => rw [dividend] at hx; exact hx.elim
  | _ => rw [divisor] at hy; cases hy

/-- The product of two mantissas has no more than 106 bits. -/
theorem bounded_mul {t' : Int} {x y : Float} (hx : Bounded t x.toModel.unpack)
    (hy : Bounded t' y.toModel.unpack) (least : -1074 ≤ t + t' + 106)
    (greatest : t + t' + 106 ≤ 971) : Bounded (t + t' + 106) (x * y).toModel.unpack := by
  rw [unpack_mul]
  refine Bounded.unpack_pack ?_ least greatest
  cases left : x.toModel.unpack with
  | zero s =>
    cases right : y.toModel.unpack with
    | zero | finite => trivial
    | notANumber | infinity => rw [right] at hy; exact hy.elim
  | finite s m e pos =>
    cases right : y.toModel.unpack with
    | zero => trivial
    | finite s' m' e' pos' =>
      rw [left] at hx
      rw [right] at hy
      have bound : e ≤ t := hx
      have bound' : e' ≤ t' := hy
      have bits : m.log2 < 53 := (Nat.log2_lt (Nat.ne_of_gt pos)).mpr (bits_of_unpack left)
      have bits' : m'.log2 < 53 := (Nat.log2_lt (Nat.ne_of_gt pos')).mpr (bits_of_unpack right)
      have product := log2_mul_lt m m'
      refine bounded_round _ ?_ least
      rw [totalExponent]
      omega
    | notANumber | infinity => rw [right] at hy; exact hy.elim
  | notANumber | infinity => rw [left] at hx; exact hx.elim

theorem isFinite_round (s : Sign) (m : Nat) (e : Int) (a : Accuracy) :
    (roundWithAccuracy .binary64 s m e a).isFinite :=
  (bounded_round a (Int.le_max_left _ (-1074)) (Int.le_max_right _ _)).isFinite

theorem isFinite_unpack_pack (h : u.isFinite)
    (small : (unpack .binary64 (pack .binary64 u)).isInf = false) :
    (unpack .binary64 (pack .binary64 u)).isFinite := by
  cases u with
  | zero s => cases s <;> rfl
  | finite s m e pos =>
    rcases unpack_pack_finite (s := s) (m := m) (e := e) with ⟨-, great⟩ | bounded
    · rw [great] at small
      cases small
    · exact (bounded (max e (-1074)) (by omega) (by omega)).isFinite
  | notANumber | infinity => cases h

/-- A product of finite numbers is finite or too great. -/
theorem isFinite_mul {x y : Float} (hx : x.isFinite) (hy : y.isFinite)
    (small : (x * y).isInf = false) : (x * y).isFinite := by
  refine isFinite_unpack_pack ?_ small
  have left : x.toModel.unpack.isFinite := hx
  have right : y.toModel.unpack.isFinite := hy
  cases hx : x.toModel.unpack with
  | zero =>
    cases hy : y.toModel.unpack with
    | zero | finite => rfl
    | notANumber | infinity => rw [hy] at right; cases right
  | finite =>
    cases hy : y.toModel.unpack with
    | zero => rfl
    | finite => exact isFinite_round _ _ _ _
    | notANumber | infinity => rw [hy] at right; cases right
  | notANumber | infinity => rw [hx] at left; cases left

theorem bounded_toFloat (n : UInt64) : Bounded 64 n.toFloat.toModel.unpack := by
  have bits : n.toNat.log2 < 64 := by
    by_cases none : n.toNat = 0
    · rw [none]
      decide
    · exact (Nat.log2_lt none).mpr n.toNat_lt
  show Bounded 64 (unpack .binary64 (pack .binary64 (UnpackedFloat.ofUInt64 .binary64 n)))
  refine Bounded.unpack_pack ?_ (by decide) (by decide)
  rw [UnpackedFloat.ofUInt64, UnpackedFloat.ofNat, UnpackedFloat.ofInt]
  unfold UnpackedFloat.normalize
  split
  · rename_i negative
    exact absurd (Int.compare_eq_lt.mp negative) (by omega)
  · trivial
  · rw [UnpackedFloat.round]
    simp only [decreaseExponent, Nat.shiftLeft_eq, Int.toNat_natCast]
    refine bounded_round _ ?_ (by decide)
    have shifted := log2_mul_two_pow_le n.toNat
      (0 - Format.binary64.targetExponent (totalExponent n.toNat 0)).toNat
    rw [totalExponent]
    omega

theorem bounded_ofNat {n : Nat} (h : n < 2 ^ 64) : Bounded 118 (Float.ofNat n).toModel.unpack := by
  have whole : Float.ofNat n = Float.ofScientific n false 0 := rfl
  rw [whole, Float.ofScientific]
  split
  · have one : Bounded (-52) (Float.ofBits 0x3FF0000000000000).toModel.unpack := by decide +kernel
    exact bounded_mul (bounded_toFloat _) one (by decide) (by decide)
  · rename_i large
    have some : n ≠ 0 := by
      rintro rfl
      exact large (by decide)
    have bits : n.log2 < 64 := (Nat.log2_lt some).mpr h
    show Bounded 118 (unpack .binary64 (pack .binary64 (UnpackedFloat.ofScientific .binary64 n 0)))
    refine Bounded.unpack_pack ?_ (by decide) (by decide)
    have exponents : (2 : Int) ^ Format.binary64.exponentBits = 2048 := rfl
    have same : n <<< Format.binary64.mantissaBits * 10 ^ Int.toNat 0 = n * 2 ^ 53 := by
      rw [Nat.shiftLeft_eq]
      exact Nat.mul_one _
    have shifted := log2_mul_two_pow_le n 53
    rw [UnpackedFloat.ofScientific, dif_neg some, if_neg (by decide), if_neg (by omega),
      if_pos (Int.le_refl 0), UnpackedFloat.mul, same]
    generalize n * 2 ^ 53 = m at shifted
    refine bounded_round _ ?_ (by decide)
    have size : Format.binary64.mantissaBits = 53 := rfl
    rw [totalExponent, size]
    omega

/-- The powers of ten that numbers are scaled by. -/
theorem isWide_power {k : Nat} (h : k ≤ 308) :
    isWide (Float.ofScientific 1 false k).toModel.unpack := by
  have ends : ∀ k ∈ 308 :: List.range 23, isWide (Float.ofScientific 1 false k).toModel.unpack := by
    decide +kernel
  by_cases small : k ∈ 308 :: List.range 23
  · exact ends k small
  rw [List.mem_cons, List.mem_range] at small
  have slow : Float.ofScientific 1 false k = ⟨Float.Model.ofScientific 1 k⟩ := by
    rw [Float.ofScientific, dif_neg (by omega)]
    rfl
  have exponents : (2 : Int) ^ Format.binary64.exponentBits = 2048 := rfl
  rw [slow]
  show isWide (unpack .binary64 (pack .binary64 (UnpackedFloat.ofScientific .binary64 1 k)))
  rw [UnpackedFloat.ofScientific, dif_neg (by decide), if_neg (by omega), if_neg (by omega),
    if_pos (by omega), UnpackedFloat.mul]
  have same : 1 <<< Format.binary64.mantissaBits * 10 ^ (k : Int).toNat = 10 ^ k * 2 ^ 53 := by
    rw [Nat.shiftLeft_eq, Nat.one_mul, Nat.mul_comm, Int.toNat_natCast]
    rfl
  have some : 10 ^ k * 2 ^ 53 ≠ 0 := by positivity
  have long : 53 ≤ (10 ^ k * 2 ^ 53).log2 :=
    (Nat.le_log2 some).mpr (Nat.le_mul_of_pos_left _ (by positivity))
  have short : (10 ^ k * 2 ^ 53).log2 < 1074 := by
    rw [Nat.log2_lt some]
    calc 10 ^ k * 2 ^ 53 ≤ 10 ^ 307 * 2 ^ 53 :=
          Nat.mul_le_mul_right _ (Nat.pow_le_pow_right (by decide) (by omega))
      _ < 2 ^ 1074 := by decide +kernel
  rw [same]
  generalize 10 ^ k * 2 ^ 53 = m at long short
  have size : -(Format.binary64.mantissaBits : Int) + 0 = -53 := rfl
  rw [size]
  obtain ⟨m', e', pos, rounded, low, high, least, greatest⟩ :=
    full_round .exact long (e := -53) (by rw [totalExponent]; omega)
  rw [totalExponent] at least greatest
  rw [rounded, unpack_pack ⟨high, by omega, by omega, .inl low⟩]
  exact decide_eq_true (by omega)

/-- Dividing again and again raises the exponent by as much each time. -/
theorem bounded_foldl_div {p : Float} (wide : isWide p.toModel.unpack) (n : Nat) {x : Float}
    (h : Bounded t x.toModel.unpack) (least : -1074 ≤ t) (greatest : t + 105 * n ≤ 971) :
    Bounded (t + 105 * n) ((List.range n).foldl (fun y _ => y / p) x).toModel.unpack := by
  induction n with
  | zero => simpa using h
  | succ n ih =>
    rw [List.range_succ, List.foldl_append, List.foldl_cons, List.foldl_nil]
    have divided := bounded_div (ih (by omega)) wide (by omega) (by omega)
    exact divided.mono (by omega)

theorem isFinite_neg {x : Float} (h : x.isFinite) : (-x).isFinite := by
  have finite : x.toModel.unpack.isFinite := h
  show (unpack .binary64 (pack .binary64 x.toModel.unpack.neg)).isFinite
  cases hx : x.toModel.unpack with
  | zero s => cases s <;> rfl
  | finite s m e pos =>
    have c := canonical_of_unpack hx
    rw [UnpackedFloat.neg, unpack_pack c]
    rfl
  | notANumber | infinity => rw [hx] at finite; cases finite

/-- Scaling a number of 64 bits gives a finite one, if any. -/
theorem isFinite_scaled {n : Nat} {scale : Int} {y : Float} (bits : n < 2 ^ 64)
    (h : scaled (Float.ofNat n) scale = some y) : y.isFinite := by
  have bounded := bounded_ofNat bits
  rw [scaled] at h
  split at h
  · simp only at h
    generalize hk : min ((scale.natAbs - 1) / 308) 3 = steps at h
    split at h
    · rename_i rest
      have divided := bounded_foldl_div (isWide_power (Nat.le_refl 308)) steps bounded (by decide)
        (by omega)
      have quotient := bounded_div divided (isWide_power rest) (by omega) (by omega)
      exact Option.some.inj h ▸ quotient.isFinite
    · exact Option.some.inj h ▸ (by decide +kernel)
  split at h
  · exact Option.some.inj h ▸ (by decide +kernel)
  split at h
  · cases h
  rename_i inRange
  dsimp only at h
  split at h
  · cases h
  · rename_i small
    have power : (Float.ofScientific 1 false scale.natAbs).isFinite := by
      have wide := isWide_power (k := scale.natAbs) (by omega)
      show (Float.ofScientific 1 false scale.natAbs).toModel.unpack.isFinite
      exact isFinite_of_isWide wide
    exact Option.some.inj h ▸ isFinite_mul bounded.isFinite power (Bool.not_eq_true _ ▸ small)

end Bounds

/-- A significand that is read has 64 bits. -/
theorem capped_lt {start : Nat} (h : start < 2 ^ 64) (digits : List Char) :
    (capped start digits).1 < 2 ^ 64 := by
  unfold capped
  refine List.foldlRecOn digits _ (motive := fun p : Nat × Nat => p.1 < 2 ^ 64) h ?_
  intro p below c _
  dsimp only
  split
  · rename_i fits
    exact of_decide_eq_true (Bool.and_eq_true_iff.mp fits).2
  · exact below

/-- What is read of a literal is finite. -/
theorem isFinite_ofLiteral? {l : Literal} {x : Float} (h : ofLiteral? l = some x) : x.isFinite := by
  obtain ⟨y, scaled, rfl⟩ := Option.map_eq_some_iff.mp h
  have finite := isFinite_scaled (capped_lt (capped_lt (by decide) l.whole) l.fraction) scaled
  split
  · exact isFinite_neg finite
  · exact finite

end Drafting.Double
