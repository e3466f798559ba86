import Drafting.Double
import Mathlib

namespace Drafting.Double

open Float.Model (UnpackedFloat Format totalExponent)
open Float.Model.UnpackedFloat

/-- A finite number as doubles have it. All 53 bits are in use unless the exponent is the least. -/
structure Canonical (m : Nat) (e : Int) : Prop where
  bits : m < 2 ^ 53
  least : -1074 ≤ e
  greatest : e ≤ 971
  full : 2 ^ 52 ≤ m ∨ e = -1074

theorem toNat_normal (v : BitVec 52) : (1#1 ++ v).toNat = 2 ^ 52 + v.toNat := by
  rw [BitVec.toNat_append, ← Nat.shiftLeft_add_eq_or_of_lt v.isLt]
  rfl

theorem log2_full {m : Nat} (full : 2 ^ 52 ≤ m) (bits : m < 2 ^ 53) : m.log2 = 52 :=
  (Nat.log2_eq_iff (by omega)).mpr ⟨full, bits⟩

theorem log2_sparse {m : Nat} (pos : 0 < m) (bits : m < 2 ^ 52) : m.log2 < 52 :=
  (Nat.log2_lt (by omega)).mpr bits

section Bits

variable {b : BitVec Format.binary64.numBits} {s : Sign} {m : Nat} {e : Int} {pos : 0 < m}

theorem bias_eq : (Format.binary64.exponentBias : Int) = 1023 := rfl

theorem width_eq : (Format.binary64.mantissaBitsWithoutImplicit : Int) = 52 := rfl

/-- How the exponent of the last bit is stored. -/
theorem toNat_biased (e : Int) :
    (e + Format.binary64.exponentBias + Format.binary64.mantissaBitsWithoutImplicit).toNat =
      (e + 1075).toNat := by
  rw [bias_eq, width_eq]
  omega

/-- Every finite double is unpacked to a number of this form. -/
theorem canonical_of_unpack (h : unpack .binary64 b = .finite s m e pos) : Canonical m e := by
  have mantissa : (unpackMantissa b).toNat < 2 ^ 52 := (unpackMantissa b).isLt
  have exponent : (unpackExponent b).toNat < 2 ^ 11 := (unpackExponent b).isLt
  have bias := bias_eq
  have width := width_eq
  rw [unpack] at h
  split at h
  · split at h <;> cases h
  rename_i finite
  have below : (unpackExponent b).toNat ≠ 2047 := fun h => finite (BitVec.eq_of_toNat_eq h)
  split at h
  · rename_i zero
    split at h
    · cases h
    cases h
    have none : (unpackExponent b).toNat = 0 := congrArg BitVec.toNat zero
    exact ⟨Nat.lt_trans mantissa (by decide), by omega, by omega, .inr (by omega)⟩
  · rename_i normal
    have above : (unpackExponent b).toNat ≠ 0 := fun h => normal (BitVec.eq_of_toNat_eq h)
    cases h
    have lead : (1#1 ++ unpackMantissa b).toNat = _ := toNat_normal (unpackMantissa b)
    exact ⟨lead ▸ by omega, by omega, by omega, .inl (lead ▸ Nat.le_add_right _ _)⟩

/-- How a number with a leading bit is packed. -/
theorem pack_full (c : Canonical m e) (full : 2 ^ 52 ≤ m) :
    pack .binary64 (.finite s m e pos) =
      packComponents .binary64 s (.ofNat 11 (e + 1075).toNat) (.ofNat 52 m) := by
  have finite : ¬2 ^ 11 ≤ (e + 1075).toNat + 1 := by
    have greatest := c.greatest
    omega
  have long : m.log2 + 1 = Format.binary64.mantissaBits := by
    rw [log2_full full c.bits]
    rfl
  have biased := toNat_biased e
  simp only [pack, biased]
  rw [if_neg finite, if_pos long]

/-- How a number without a leading bit is packed. -/
theorem pack_sparse (sparse : m < 2 ^ 52) :
    pack .binary64 (.finite s m (-1074) pos) = packComponents .binary64 s 0 (.ofNat 52 m) := by
  have finite : ¬2 ^ 11 ≤ ((-1074 : Int) + Format.binary64.exponentBias +
      Format.binary64.mantissaBitsWithoutImplicit).toNat + 1 := by decide
  have short : m.log2 + 1 ≠ Format.binary64.mantissaBits := by
    have log := log2_sparse pos sparse
    have size : Format.binary64.mantissaBits = 53 := rfl
    omega
  simp only [pack]
  rw [if_neg finite, if_neg short]
  rfl

/-- What is packed is unpacked again. -/
theorem unpack_pack (c : Canonical m e) :
    unpack .binary64 (pack .binary64 (.finite s m e pos)) = .finite s m e pos := by
  have least := c.least
  have greatest := c.greatest
  have bits := c.bits
  by_cases full : 2 ^ 52 ≤ m
  · have exponent : (BitVec.ofNat 11 (e + 1075).toNat).toNat = (e + 1075).toNat := by
      rw [BitVec.toNat_ofNat, Nat.mod_eq_of_lt (by omega)]
    have finite : BitVec.ofNat 11 (e + 1075).toNat ≠ -1#11 := fun h => by
      have ones : (e + 1075).toNat = 2047 := exponent ▸ congrArg BitVec.toNat h
      omega
    have normal : BitVec.ofNat 11 (e + 1075).toNat ≠ 0#11 := fun h => by
      have zero : (e + 1075).toNat = 0 := exponent ▸ congrArg BitVec.toNat h
      omega
    have mantissa : (1#1 ++ BitVec.ofNat 52 m).toNat = m := by
      rw [toNat_normal, BitVec.toNat_ofNat]
      omega
    rw [pack_full c full, unpack]
    simp only [unpackMantissa_packComponents, unpackExponent_packComponents,
      unpackSign_packComponents, Sign.ofBitVec_toBitVec, if_neg finite, if_neg normal, exponent,
      mantissa, bias_eq]
    congr 1
    omega
  · have sparse : m < 2 ^ 52 := Nat.lt_of_not_le full
    obtain rfl := c.full.resolve_left full
    have mantissa : (BitVec.ofNat 52 m).toNat = m := by
      rw [BitVec.toNat_ofNat, Nat.mod_eq_of_lt sparse]
    have some : BitVec.ofNat 52 m ≠ 0#52 := fun h => by
      have zero : m = 0 := mantissa ▸ congrArg BitVec.toNat h
      omega
    rw [pack_sparse sparse, unpack]
    simp only [unpackMantissa_packComponents, unpackExponent_packComponents,
      unpackSign_packComponents, Sign.ofBitVec_toBitVec]
    rw [if_neg (by decide), if_pos (by decide), dif_neg some]
    simp only [mantissa]
    rfl

end Bits

theorem targetExponent_eq (t : Int) : Format.binary64.targetExponent t = max (t - 53) (-1074) := rfl

/-- Rounding has nothing to do where the exponent is the one it aims at. -/
theorem targetExponent_canonical {m : Nat} {e : Int} (pos : 0 < m) (c : Canonical m e) :
    Format.binary64.targetExponent (totalExponent m e) = e := by
  have least := c.least
  rw [targetExponent_eq, totalExponent]
  rcases c.full with full | rfl
  · rw [log2_full full c.bits]
    omega
  · by_cases full : 2 ^ 52 ≤ m
    · rw [log2_full full c.bits]
      omega
    · have log := log2_sparse pos (Nat.lt_of_not_le full)
      omega

theorem totalExponent_lowered {m k : Nat} (pos : 0 < m) (low : Int) :
    totalExponent (m * 2 ^ k) low = totalExponent m (low + k) := by
  have some : m ≠ 0 := by omega
  have log : (m * 2 ^ k).log2 = m.log2 + k := by
    rw [Nat.log2_eq_iff (Nat.mul_ne_zero some (Nat.ne_of_gt (Nat.two_pow_pos k))), Nat.pow_add,
      Nat.add_right_comm, Nat.pow_add]
    exact ⟨Nat.mul_le_mul_right _ (Nat.log2_self_le some),
      Nat.mul_lt_mul_of_pos_right Nat.lt_log2_self (Nat.two_pow_pos k)⟩
  rw [totalExponent, totalExponent, log]
  omega

/-- Bits that are zero are shifted out without a trace. -/
theorem shiftRight_exact (m k : Nat) :
    (⟨m * 2 ^ k, false, false⟩ : ExtendedMantissa) >>> k = ⟨m, false, false⟩ := by
  induction k generalizing m with
  | zero => simp [HShiftRight.hShiftRight, Nat.repeat]
  | succ k ih =>
    have twice : m * 2 ^ (k + 1) = m * 2 * 2 ^ k := by
      rw [Nat.pow_succ, Nat.mul_assoc, Nat.mul_comm 2]
    have step : (⟨m * 2 ^ (k + 1), false, false⟩ : ExtendedMantissa) >>> (k + 1) =
        ((⟨m * 2 ^ (k + 1), false, false⟩ : ExtendedMantissa) >>> k).shiftRightOne := rfl
    rw [step, twice, ih]
    simp [ExtendedMantissa.shiftRightOne]

/-- A number that a double can stand for is rounded to itself, however low its exponent was made. -/
theorem round_lowered {s : Sign} {m k : Nat} {low : Int} (pos : 0 < m)
    (c : Canonical m (low + k)) :
    UnpackedFloat.round .binary64 s (m * 2 ^ k) low = .finite s m (low + k) pos := by
  have target := targetExponent_canonical pos c
  have stay : (low - (low + k)).toNat = 0 := by omega
  have up : (low + k - low).toNat = k := by omega
  have none : (low + k - (low + k)).toNat = 0 := by omega
  have first : (ExtendedMantissa.ofMantissaAndAccuracy (m * 2 ^ k) .exact) >>> k =
      ⟨m, false, false⟩ := shiftRight_exact m k
  rw [UnpackedFloat.round, totalExponent_lowered pos, target, decreaseExponent, stay]
  have rounded : (⟨m, false, false⟩ : ExtendedMantissa).roundedMantissa = m := rfl
  have kept : (ExtendedMantissa.ofMantissaAndAccuracy m .exact) >>> 0 = ⟨m, false, false⟩ := rfl
  simp only [Nat.shiftLeft_zero, Int.natCast_zero, Int.sub_zero, Int.add_zero, roundWithAccuracy,
    shiftToTargetExponent, shiftToExponent, totalExponent_lowered pos, target, up, first, rounded,
    none, kept]
  rw [dif_neg (Nat.ne_of_gt pos)]

theorem ofUnpacked_unpack (x : Float) : ofUnpacked x.toModel.unpack = x := by
  obtain ⟨⟨bits, valid⟩⟩ := x
  have same : pack .binary64 (unpack .binary64 bits.toBitVec) = bits.toBitVec :=
    pack_unpack_of_valid valid
  simp only [ofUnpacked, Float.Model.pack, Float.Model.unpack, same]

theorem unpack_abs (x : Float) : x.abs.toModel.unpack = x.toModel.unpack.abs := by
  cases h : x.toModel.unpack with
  | notANumber =>
    rw [Float.abs, Float.Model.abs, h]
    rfl
  | infinity s | zero s =>
    rw [Float.abs, Float.Model.abs, h]
    cases s <;> rfl
  | finite s m e pos =>
    rw [Float.abs, Float.Model.abs, h]
    exact unpack_pack (canonical_of_unpack h)

/-- The lesser of two numbers is the lesser at any exponent below theirs. -/
theorem lowered_lt {m m' : Nat} {e e' : Int} (c : Canonical m e) (c' : Canonical m' e')
    (less : (compare e e').then (compare m m') = .lt) :
    lowered ⟨m, e⟩ (min e e') < lowered ⟨m', e'⟩ (min e e') := by
  simp only [lowered, Nat.pow_eq]
  rcases Ordering.then_eq_lt.mp less with lower | ⟨same, fewer⟩
  · have below : e < e' := Int.compare_eq_lt.mp lower
    obtain ⟨k, rfl⟩ : ∃ k : Nat, e' = e + (k + 1 : Nat) := ⟨(e' - e - 1).toNat, by omega⟩
    have full : 2 ^ 52 ≤ m' := c'.full.resolve_right fun low => by
      have least := c.least
      omega
    have kept : (e - min e (e + (k + 1 : Nat))).toNat = 0 := by omega
    have raised : (e + (k + 1 : Nat) - min e (e + (k + 1 : Nat))).toNat = k + 1 := by omega
    rw [kept, raised]
    calc m * 2 ^ 0 = m := by omega
      _ < 2 ^ 52 * 2 ^ 1 := c.bits
      _ ≤ m' * 2 ^ (k + 1) := Nat.mul_le_mul full (Nat.pow_le_pow_right (by decide) (by omega))
  · obtain rfl : e = e' := Int.compare_eq_eq.mp same
    have kept : (e - min e e).toNat = 0 := by omega
    rw [kept]
    exact Nat.mul_lt_mul_of_pos_right (Nat.compare_eq_lt.mp fewer) (Nat.two_pow_pos 0)

theorem compare_of_lt {x y : Float} (less : Scalar.lt x y = true) :
    x.toModel.unpack.compare y.toModel.unpack = some .lt := by
  have lt : x < y := of_decide_eq_true less
  have below : x.toModel < y.toModel := of_decide_eq_true lt
  exact eq_of_beq below

/-- The remainder by a number that is greater is the dividend itself. -/
theorem rem_of_abs_lt {x y : Float} (less : Scalar.lt (Scalar.abs x) y = true) :
    Scalar.rem x y = x := by
  have compared : x.toModel.unpack.abs.compare y.toModel.unpack = some .lt :=
    unpack_abs x ▸ compare_of_lt less
  have back := ofUnpacked_unpack x
  show rem x y = x
  rw [rem]
  cases hx : x.toModel.unpack with
  | notANumber =>
    rw [hx] at compared
    cases compared
  | infinity s =>
    rw [hx] at compared
    cases hy : y.toModel.unpack with
    | infinity t => rw [hy] at compared; cases t <;> cases compared
    | _ => rw [hy] at compared; cases compared
  | zero s =>
    rw [hx] at compared back
    cases hy : y.toModel.unpack with
    | notANumber => rw [hy] at compared; cases compared
    | zero t => rw [hy] at compared; cases compared
    | _ => exact back
  | finite s m e pos =>
    rw [hx] at compared back
    cases hy : y.toModel.unpack with
    | notANumber => rw [hy] at compared; cases compared
    | zero t => rw [hy] at compared; cases compared
    | infinity t => rfl
    | finite t m' e' pos' =>
      rw [hy] at compared
      cases t with
      | negative => cases compared
      | positive =>
        have c := canonical_of_unpack hx
        have c' := canonical_of_unpack hy
        have less := lowered_lt c c' (Option.some.inj compared)
        have some : lowered ⟨m, e⟩ (min e e') ≠ 0 :=
          Nat.mul_ne_zero (Nat.ne_of_gt pos) (Nat.ne_of_gt (Nat.two_pow_pos _))
        have raised : min e e' + ((e - min e e').toNat : Nat) = e := by omega
        have same : UnpackedFloat.round .binary64 s (lowered ⟨m, e⟩ (min e e')) (min e e') =
            .finite s m e pos := by
          have rounded := round_lowered (s := s) pos (raised.symm ▸ c)
          rw [raised] at rounded
          exact rounded
        simp only [Nat.mod_eq_of_lt less, if_neg some, same]
        exact back

end Drafting.Double
