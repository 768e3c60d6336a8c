import Mathlib

/-! # Integers as doubles

    The double of an integer of 64 bits is finite (`isFinite_ofInt`).  A double is made of a
    mantissa and an exponent, and its size is bounded by the position of its first binary digit
    (`Under`).  Rounding and multiplying move this position up by one at most, and a double whose
    first digit stands well within the range of the exponents is stored as a finite one. -/

namespace FlowGraph
namespace Doubles

open Float.Model (Format UnpackedFloat totalExponent)
open Float.Model.UnpackedFloat

/-! ## Section 1: First digits -/

theorem log2_mul_le (m n : Nat) : (m * n).log2 ≤ m.log2 + n.log2 + 1 := by
  by_cases hzero : m * n = 0
  · simp [hzero]
  · rw [← Nat.lt_succ_iff, Nat.log2_lt hzero]
    calc m * n
        < 2 ^ (m.log2 + 1) * 2 ^ (n.log2 + 1) := Nat.mul_lt_mul'' Nat.lt_log2_self Nat.lt_log2_self
      _ = 2 ^ (m.log2 + n.log2 + 1).succ := by rw [← pow_add]; congr 1; omega

theorem log2_shiftLeft_le (m k : Nat) : (m <<< k).log2 ≤ m.log2 + k := by
  by_cases hzero : m <<< k = 0
  · simp [hzero]
  · rw [← Nat.lt_succ_iff, Nat.log2_lt hzero, Nat.shiftLeft_eq]
    calc m * 2 ^ k
        < 2 ^ (m.log2 + 1) * 2 ^ k := Nat.mul_lt_mul_of_pos_right Nat.lt_log2_self (by positivity)
      _ = 2 ^ (m.log2 + k).succ := by rw [← pow_add]; congr 1; omega

theorem log2_le_of_le {m k : Nat} (h : m ≤ 2 ^ k) : m.log2 ≤ k := by
  by_cases hzero : m = 0
  · simp [hzero]
  · rw [← Nat.lt_succ_iff, Nat.log2_lt hzero, Nat.pow_succ]
    have := Nat.two_pow_pos k
    omega

/-- Digits that are dropped move the first one, if any is left. -/
theorem log2_div_le {m k : Nat} (h : m / 2 ^ k ≠ 0) : (m / 2 ^ k).log2 + k ≤ m.log2 := by
  have hm : m ≠ 0 := by
    rintro rfl
    simp at h
  rw [Nat.le_log2 hm, pow_add, ← Nat.le_div_iff_mul_le (Nat.two_pow_pos k)]
  exact Nat.log2_self_le h

/-- So do the digits that are left, rounded up. -/
theorem div_succ_le (m k : Nat) : m / 2 ^ k + 1 ≤ 2 ^ (m.log2 + 1 - k) := by
  rw [Nat.succ_le_iff, Nat.div_lt_iff_lt_mul (Nat.two_pow_pos k), ← pow_add]
  exact lt_of_lt_of_le Nat.lt_log2_self (Nat.pow_le_pow_right (by omega) (by omega))

/-! ## Section 2: Bounds that operations keep -/

/-- The double is finite, and its first digit stands at a position or below. -/
inductive Under (top : Int) : UnpackedFloat → Prop where
  | zero (sign : Sign) : Under top (.zero sign)
  | finite {sign : Sign} {mantissa : Nat} {exponent : Int} {hpos : 0 < mantissa}
      (hsize : totalExponent mantissa exponent ≤ top) :
      Under top (.finite sign mantissa exponent hpos)

variable {top top' : Int} {u v : UnpackedFloat}

theorem Under.mono (h : Under top u) (hle : top ≤ top') : Under top' u := by
  cases h with
  | zero sign => exact .zero sign
  | finite hsize => exact .finite (hsize.trans hle)

theorem Under.neg (h : Under top u) : Under top u.neg := by
  cases h with
  | zero sign => exact .zero _
  | finite hsize => exact .finite hsize

theorem Under.isFinite (h : Under top u) : u.isFinite = true := by
  cases h <;> rfl

theorem mantissa_shiftRight (em : ExtendedMantissa) (n : Nat) :
    (em >>> n).mantissa = em.mantissa / 2 ^ n := by
  change (n.repeat ExtendedMantissa.shiftRightOne em).mantissa = _
  induction n with
  | zero => simp [Nat.repeat]
  | succ n ih =>
    rw [Nat.repeat, ExtendedMantissa.shiftRightOne, ih, Nat.div_div_eq_div_mul, pow_succ]

theorem roundedMantissa_le (em : ExtendedMantissa) : em.roundedMantissa ≤ em.mantissa + 1 := by
  unfold ExtendedMantissa.roundedMantissa Accuracy.roundToNearestEven
  split <;> omega

/-- Rounding moves the first digit up by one position at most. -/
theorem under_roundWithAccuracy (sign : Sign) (mantissa : Nat) (exponent : Int)
    (htop : -1074 ≤ top) (hsize : totalExponent mantissa exponent ≤ top) :
    Under (top + 1) (roundWithAccuracy Format.binary64 sign mantissa exponent .exact) := by
  unfold roundWithAccuracy shiftToTargetExponent shiftToExponent
  dsimp only
  -- the digits dropped at first, and those dropped after the rounding
  generalize hfirst : (Format.binary64.targetExponent (totalExponent mantissa exponent)
    - exponent).toNat = k
  generalize hrounded : (ExtendedMantissa.ofMantissaAndAccuracy mantissa .exact >>> k).roundedMantissa
    = rounded
  generalize (Format.binary64.targetExponent (totalExponent rounded (exponent + k))
    - (exponent + k)).toNat = k'
  split
  · exact .zero sign
  · rename_i hleft
    have hdropped : rounded ≤ mantissa / 2 ^ k + 1 := by
      have hle := roundedMantissa_le (ExtendedMantissa.ofMantissaAndAccuracy mantissa .exact >>> k)
      rwa [hrounded, mantissa_shiftRight] at hle
    have hlog : rounded.log2 ≤ mantissa.log2 + 1 - k :=
      log2_le_of_le (hdropped.trans (div_succ_le mantissa k))
    rw [mantissa_shiftRight] at hleft
    have hlast : (rounded / 2 ^ k').log2 + k' ≤ rounded.log2 := log2_div_le hleft
    have hmantissa : (ExtendedMantissa.ofMantissaAndAccuracy rounded .exact >>> k').mantissa
        = rounded / 2 ^ k' := mantissa_shiftRight _ _
    have hmin : Format.binary64.minExponent = -1074 := by decide
    have hbits : (Format.binary64.mantissaBits : Int) = 53 := by decide
    unfold Format.targetExponent at hfirst
    unfold totalExponent at hsize hfirst
    apply Under.finite
    unfold totalExponent
    rw [hmantissa]
    omega

theorem Under.mul (hu : Under top u) (hv : Under top' v) (htop : -1074 ≤ top + top') :
    Under (top + top' + 1) (UnpackedFloat.mul Format.binary64 u v) := by
  cases hu with
  | zero _ => cases hv <;> exact .zero _
  | @finite sign m e _ hsize =>
    cases hv with
    | zero _ => exact .zero _
    | @finite sign' m' e' _ hsize' =>
      have hproduct : totalExponent (m * m') (e + e') ≤ top + top' := by
        have hlog := log2_mul_le m m'
        unfold totalExponent at hsize hsize' ⊢
        omega
      exact under_roundWithAccuracy (sign * sign') (m * m') (e + e') htop hproduct

theorem under_round (sign : Sign) (mantissa : Nat) (exponent : Int) (htop : -1074 ≤ top)
    (hsize : totalExponent mantissa exponent ≤ top) :
    Under (top + 1) (UnpackedFloat.round Format.binary64 sign mantissa exponent) := by
  unfold UnpackedFloat.round decreaseExponent
  dsimp only
  generalize (exponent - Format.binary64.targetExponent (totalExponent mantissa exponent)).toNat = k
  apply under_roundWithAccuracy sign _ _ htop
  have hlog := log2_shiftLeft_le mantissa k
  unfold totalExponent at hsize ⊢
  omega

theorem under_normalize (n : Int) (sign : Sign) (hn : n.natAbs ≤ 2 ^ 64) :
    Under 66 (UnpackedFloat.normalize Format.binary64 n 0 sign) := by
  have hsize : ∀ m : Nat, m ≤ 2 ^ 64 → totalExponent m 0 ≤ 65 := by
    intro m hm
    have hlog := log2_le_of_le hm
    unfold totalExponent
    omega
  unfold UnpackedFloat.normalize
  split
  · exact under_round _ _ _ (by decide) (hsize _ (by omega))
  · exact .zero _
  · exact under_round _ _ _ (by decide) (hsize _ (by omega))

/-! ## Section 3: Stored doubles -/

theorem under_unpack (sign : Sign) (exponent : BitVec Format.binary64.exponentBits)
    (mantissa : BitVec Format.binary64.mantissaBitsWithoutImplicit) (hexponent : exponent ≠ -1#_) :
    Under (exponent.toNat - 1021)
      (unpack Format.binary64 (packComponents Format.binary64 sign exponent mantissa)) := by
  have hbias : Format.binary64.exponentBias = 1023 := by decide
  have hmantissa : mantissa.toNat < 2 ^ 52 := mantissa.isLt
  unfold unpack
  simp only [unpackMantissa_packComponents, unpackExponent_packComponents, hexponent, if_false,
    hbias]
  split
  · rename_i hzero
    split
    · exact .zero _
    · have hlog : mantissa.toNat.log2 ≤ 52 := log2_le_of_le hmantissa.le
      apply Under.finite
      unfold totalExponent
      omega
  · have hlog : (1#1 ++ mantissa).toNat.log2 ≤ 53 := log2_le_of_le (1#1 ++ mantissa).isLt.le
    apply Under.finite
    unfold totalExponent
    omega

/-- A double that is stored keeps its bound, but for the digits that may be added to it. -/
theorem under_unpack_pack (h : Under top u) (htop : top ≤ 972) :
    Under (max (top + 53) 0) (unpack Format.binary64 (pack Format.binary64 u)) := by
  have hzero : (0 : BitVec Format.binary64.exponentBits) ≠ -1#_ := by decide
  cases h with
  | zero sign =>
    apply (under_unpack sign 0 0 hzero).mono
    simp
  | @finite sign mantissa exponent hpos hsize =>
    have hbias : Format.binary64.exponentBias = 1023 := by decide
    have hrange : 2 ^ Format.binary64.exponentBits = 2048 := by decide
    unfold totalExponent at hsize
    unfold pack
    dsimp only
    rw [hbias, hrange]
    generalize hbiased : (exponent + (1023 : Nat) + (52 : Nat)).toNat = biased
    rw [if_neg (by omega)]
    split
    · have hstored : (BitVec.ofNat Format.binary64.exponentBits biased).toNat = biased := by
        rw [BitVec.toNat_ofNat, hrange, Nat.mod_eq_of_lt (by omega)]
      have hfinite : BitVec.ofNat Format.binary64.exponentBits biased ≠ -1#_ := by
        intro heq
        rw [heq] at hstored
        have hall : (-1#_ : BitVec Format.binary64.exponentBits).toNat = 2047 := by decide
        omega
      apply (under_unpack sign _ _ hfinite).mono
      rw [hstored]
      omega
    · apply (under_unpack sign 0 _ hzero).mono
      simp

/-- The double, as it is stored, is bounded. -/
def Below (top : Int) (x : Float) : Prop := Under top x.toModel.unpack

theorem Below.mono {x : Float} (h : Below top x) (hle : top ≤ top') : Below top' x :=
  Under.mono h hle

theorem Below.isFinite {x : Float} (h : Below top x) : x.isFinite = true := Under.isFinite h

theorem below_pack (h : Under top u) (htop : top ≤ 972) :
    Below (max (top + 53) 0) (.ofModel (.pack u)) :=
  under_unpack_pack h htop

/-! ## Section 4: Doubles of integers -/

theorem below_one : Below 1 (Float.exactlyRepresentablePowersOfTen[0]) := by
  have hone : Float.Model.unpack Float.exactlyRepresentablePowersOfTen[0].toModel
      = .finite .positive (2 ^ 52) (-52) (by decide) := rfl
  unfold Below
  rw [hone]
  exact .finite (by decide)

/-- A double that is the product of two is stored again. -/
theorem Below.mul {x y : Float} (hx : Below top x) (hy : Below top' y)
    (hlow : -1074 ≤ top + top') (hhigh : top + top' ≤ 971) :
    Below (max (top + top' + 54) 0) (x * y) := by
  have h := below_pack (Under.mul hx hy hlow) (by omega)
  exact Under.mono h (by omega)

theorem under_ofScientific {n : Nat} (hn : n ≤ 2 ^ 64) :
    Under 67 (UnpackedFloat.ofScientific Format.binary64 n 0) := by
  unfold UnpackedFloat.ofScientific
  split
  · exact .zero _
  · have hrange : ¬ (0 : Int) < -((2 ^ Format.binary64.exponentBits : Int) + n.log2) := by
      have hcapacity : (2 ^ Format.binary64.exponentBits : Int) = 2048 := by decide
      omega
    -- the shift makes room for digits, and leaves the size as it is
    have hdigits : totalExponent (n <<< Format.binary64.mantissaBits)
        (-Format.binary64.mantissaBits) ≤ 65 := by
      have hshift := log2_shiftLeft_le n Format.binary64.mantissaBits
      have hlog := log2_le_of_le hn
      unfold totalExponent
      omega
    rw [if_neg (by decide), if_neg hrange, if_pos (by decide)]
    have hone : totalExponent (10 ^ (0 : Int).toNat) 0 ≤ 1 := by decide
    exact Under.mul (.finite hdigits) (.finite hone) (by decide)

theorem below_ofNat {n : Nat} (hn : n ≤ 2 ^ 64) : Below 174 (Float.ofNat n) := by
  change Below 174 (Float.ofScientific n false 0)
  unfold Float.ofScientific
  split
  · -- a small number is stored first, and then multiplied with one
    have hrounded : Under 66 (.ofUInt64 Format.binary64 n.toUInt64) := by
      apply under_normalize
      have := n.toUInt64.toNat_lt
      omega
    have hstored : Below 119 n.toUInt64.toFloat := below_pack hrounded (by decide)
    exact (hstored.mul below_one (by decide) (by decide)).mono (by decide)
  · exact (below_pack (under_ofScientific hn) (by decide)).mono (by decide)

theorem Below.neg {x : Float} (h : Below top x) (htop : top ≤ 972) :
    Below (max (top + 53) 0) (Float.neg x) :=
  below_pack (Under.neg h) htop

/-- The double of an integer of 64 bits, signed or not, is finite. -/
theorem isFinite_ofInt {n : Int} (hn : n.natAbs ≤ 2 ^ 64) : (Float.ofInt n).isFinite = true := by
  cases n with
  | ofNat m =>
    have h : Below 174 (Float.ofInt (Int.ofNat m)) := below_ofNat hn
    exact h.isFinite
  | negSucc m =>
    have h : Below 227 (Float.ofInt (Int.negSucc m)) := (below_ofNat hn).neg (by decide)
    exact h.isFinite

end Doubles
end FlowGraph
