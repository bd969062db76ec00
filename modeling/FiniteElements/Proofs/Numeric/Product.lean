import FiniteElements.Proofs.Numeric.Ratio
import FiniteElements.Proofs.Numeric.Ieee

/-!
# Multiplying a double by one and by zero

A tensor product basis function is evaluated as a running product started from `1`, so its value
is `(1 · a) · b`. Where one factor is `1` or a zero, the product is the other factor or a zero;
this file shows it in Lean's logical model of doubles (`Float.Model`, `UnpackedFloat`).

Unpacking a finite double gives a mantissa and an exponent that are already rounded: the exponent
is the one the format asks for (`isRounded_of_unpack`). The double `1` is `2^52 · 2^-52`, so the
exact product of `1` and a finite `x` is the mantissa of `x` shifted left by `52` bits at an
exponent lowered by `52`, and rounding shifts those zero bits out again with nothing lost
(`roundWithAccuracy_scaled`). So `1 · x = x` and `x · 1 = x` for every `x` but `NaN`, infinities and
zeros included (`one_mul_of_ne_nan`, `mul_one_of_ne_nan`). A zero times a finite double is a zero
of some sign, IEEE-equal to `0` (`mul_beq_zero_of_zero_left`, `mul_beq_zero_of_zero_right`).

## Main definitions

* `FiniteElements.Numeric.IsRounded`

## Main results

* `FiniteElements.Numeric.roundWithAccuracy_scaled`, `isRounded_of_unpack`
* `FiniteElements.Numeric.one_mul_of_ne_nan`, `mul_one_of_ne_nan`
* `FiniteElements.Numeric.mul_beq_zero_of_zero_left`, `mul_beq_zero_of_zero_right`
-/

namespace FiniteElements.Numeric

set_option autoImplicit false

open Float.Model Float.Model.UnpackedFloat

section Rounding

/-- Shifting out `k` zero bits is exact. -/
theorem shiftRight_mul_two_pow (k : Nat) : ∀ M : Nat,
    (⟨M * 2 ^ k, false, false⟩ : ExtendedMantissa) >>> k = ⟨M, false, false⟩ := by
  induction k with
  | zero => intro M; simp [HShiftRight.hShiftRight, Nat.repeat]
  | succ k ih =>
    intro M
    show ExtendedMantissa.shiftRightOne
      ((⟨M * 2 ^ (k + 1), false, false⟩ : ExtendedMantissa) >>> k) = _
    rw [show M * 2 ^ (k + 1) = (M * 2) * 2 ^ k by ring, ih]
    simp [ExtendedMantissa.shiftRightOne]

/-- A mantissa and an exponent are rounded when the exponent is the one `binary64` asks for. -/
def IsRounded (F : Nat) (E : Int) : Prop :=
  Format.binary64.targetExponent (totalExponent F E) = E

/-- **Rounding a shifted rounded value gives it back**: `F · 2^k` at exponent `E - k` rounds to
`F` at `E`, with nothing lost. -/
theorem roundWithAccuracy_scaled (s : Sign) {F : Nat} {E : Int} (hF : 0 < F) (hE : IsRounded F E)
    (k : Nat) :
    roundWithAccuracy Format.binary64 s (F * 2 ^ k) (E - k) .exact = .finite s F E hF := by
  have htot : totalExponent (F * 2 ^ k) (E - k) = totalExponent F E := by
    simp only [totalExponent]
    rw [← Nat.shiftLeft_eq, log2_shiftLeft hF]
    push_cast
    ring
  unfold IsRounded at hE
  -- the first shift drops the `k` zero bits, exactly; the second one shifts by nothing
  have hfirst : shiftToTargetExponent Format.binary64 (F * 2 ^ k) (E - k) .exact =
      (⟨F, false, false⟩, E) := by
    simp only [shiftToTargetExponent, htot, hE, shiftToExponent,
      show (E - (E - k)).toNat = k by omega, show E - k + (k : Int) = E by omega]
    exact Prod.ext (shiftRight_mul_two_pow k F) rfl
  have hsecond : shiftToTargetExponent Format.binary64 F E .exact = (⟨F, false, false⟩, E) := by
    have h := shiftRight_mul_two_pow 0 F
    simp only [Nat.pow_zero, Nat.mul_one] at h
    simp only [shiftToTargetExponent, hE, shiftToExponent, sub_self, Int.toNat_zero,
      Int.natCast_zero, add_zero]
    exact Prod.ext h rfl
  rw [roundWithAccuracy, hfirst]
  simp only [ExtendedMantissa.roundedMantissa, ExtendedMantissa.accuracy,
    Accuracy.roundToNearestEven, hsecond]
  simp [Nat.pos_iff_ne_zero.1 hF]

/-- **Unpacked doubles are rounded**: a subnormal has fewer than 53 bits at the least exponent,
a normal number 53 bits at an exponent no smaller. -/
theorem isRounded_of_unpack {b : BitVec Format.binary64.numBits} {s : Sign} {F : Nat} {E : Int}
    {hF : 0 < F} (h : UnpackedFloat.unpack Format.binary64 b = .finite s F E hF) :
    IsRounded F E := by
  have hElt : (unpackExponent b).toNat < 2048 := (unpackExponent b).isLt
  have hMlt : (unpackMantissa b).toNat < 2 ^ 52 := (unpackMantissa b).isLt
  have hbias : Format.binary64.exponentBias = 1023 := rfl
  unfold UnpackedFloat.unpack at h
  dsimp only at h
  unfold IsRounded
  rw [targetExponent_binary64, totalExponent]
  split_ifs at h with hE hM hE0 hM0
  · simp only [finite.injEq] at h
    obtain ⟨-, rfl, rfl⟩ := h
    have hlog : (unpackMantissa b).toNat.log2 < 52 := (Nat.log2_lt (by omega)).2 hMlt
    simp only [hE0, BitVec.toNat_zero, hbias]
    omega
  · simp only [finite.injEq] at h
    obtain ⟨-, rfl, rfl⟩ := h
    have hE0' : (unpackExponent b).toNat ≠ 0 := fun h' =>
      hE0 (BitVec.eq_of_toNat_eq (by simpa using h'))
    have hval : (1#1 ++ unpackMantissa b).toNat = 2 ^ 52 + (unpackMantissa b).toNat := by
      rw [BitVec.toNat_append]
      simp only [BitVec.toNat_ofNat, Nat.shiftLeft_eq]
      rw [Nat.or_comm, show 1 % 2 ^ 1 * 2 ^ 52 = 2 ^ 52 by norm_num,
        Nat.or_two_pow_eq_add_of_lt hMlt, Nat.add_comm]
    have hlog : (1#1 ++ unpackMantissa b).toNat.log2 = 52 := by
      rw [Nat.log2_eq_iff (by omega)]
      constructor <;> omega
    simp only [hlog, hbias]
    omega

end Rounding

section Products

theorem unpack_one : (1 : Float).toModel.unpack = .finite .positive (2 ^ 52) (-52) (by decide) :=
  rfl

theorem mul_eq (x y : Float) : x * y =
    .ofModel (Float.Model.pack (UnpackedFloat.mul Format.binary64 x.toModel.unpack
      y.toModel.unpack)) := rfl

theorem positive_mul (s : Sign) : Sign.positive * s = s := by cases s <;> rfl

theorem mul_positive (s : Sign) : s * Sign.positive = s := by cases s <;> rfl

theorem ofModel_pack_unpack (x : Float) : Float.ofModel (Float.Model.pack x.toModel.unpack) = x := by
  rw [model_pack_unpack]

theorem unpack_pack_zero (s : Sign) : (Float.Model.pack (.zero s)).unpack = .zero s := by
  cases s <;> rfl

/-- **`1 · x = x`** for every double but `NaN`. -/
theorem one_mul_of_ne_nan {x : Float} (hx : x.toModel.unpack ≠ .notANumber) : 1 * x = x := by
  have hmul : UnpackedFloat.mul Format.binary64 (.finite .positive (2 ^ 52) (-52) (by decide))
      x.toModel.unpack = x.toModel.unpack := by
    cases hu : x.toModel.unpack with
    | notANumber => exact absurd hu hx
    | infinity s => simp only [UnpackedFloat.mul, positive_mul]
    | zero s => simp only [UnpackedFloat.mul, positive_mul]
    | finite s F E hF =>
      have h := roundWithAccuracy_scaled s hF (isRounded_of_unpack hu) 52
      simp only [UnpackedFloat.mul, positive_mul]
      rw [Nat.mul_comm, show (-52 : Int) + E = E - (52 : Nat) by omega]
      exact h
  rw [mul_eq, unpack_one, hmul, ofModel_pack_unpack]

/-- **`x · 1 = x`** for every double but `NaN`. -/
theorem mul_one_of_ne_nan {x : Float} (hx : x.toModel.unpack ≠ .notANumber) : x * 1 = x := by
  have hmul : UnpackedFloat.mul Format.binary64 x.toModel.unpack
      (.finite .positive (2 ^ 52) (-52) (by decide)) = x.toModel.unpack := by
    cases hu : x.toModel.unpack with
    | notANumber => exact absurd hu hx
    | infinity s => simp only [UnpackedFloat.mul, mul_positive]
    | zero s => simp only [UnpackedFloat.mul, mul_positive]
    | finite s F E hF =>
      have h := roundWithAccuracy_scaled s hF (isRounded_of_unpack hu) 52
      simp only [UnpackedFloat.mul, mul_positive]
      rw [show E + (-52 : Int) = E - (52 : Nat) by omega]
      exact h
  rw [mul_eq, unpack_one, hmul, ofModel_pack_unpack]

theorem ne_nan_of_isFinite {x : Float} (hx : x.isFinite = true) :
    x.toModel.unpack ≠ .notANumber := by
  intro h
  have hx' : x.toModel.unpack.isFinite = true := hx
  simp [h, UnpackedFloat.isFinite] at hx'

/-- A zero times a finite double is a zero. -/
theorem mul_beq_zero_of_zero_left {x y : Float} (hx : (x == 0) = true) (hy : y.isFinite = true) :
    (x * y == 0) = true := by
  obtain ⟨s, hs⟩ := (float_beq_zero_iff x).1 hx
  rw [float_beq_zero_iff]
  have hy' : y.toModel.unpack.isFinite = true := hy
  cases hu : y.toModel.unpack with
  | notANumber => simp [hu, UnpackedFloat.isFinite] at hy'
  | infinity t => simp [hu, UnpackedFloat.isFinite] at hy'
  | zero t => exact ⟨s * t, by rw [mul_eq, hs, hu]; exact unpack_pack_zero _⟩
  | finite t F E hF => exact ⟨s * t, by rw [mul_eq, hs, hu]; exact unpack_pack_zero _⟩

/-- A finite double times a zero is a zero. -/
theorem mul_beq_zero_of_zero_right {x y : Float} (hx : x.isFinite = true) (hy : (y == 0) = true) :
    (x * y == 0) = true := by
  obtain ⟨t, ht⟩ := (float_beq_zero_iff y).1 hy
  rw [float_beq_zero_iff]
  have hx' : x.toModel.unpack.isFinite = true := hx
  cases hu : x.toModel.unpack with
  | notANumber => simp [hu, UnpackedFloat.isFinite] at hx'
  | infinity s => simp [hu, UnpackedFloat.isFinite] at hx'
  | zero s => exact ⟨s * t, by rw [mul_eq, hu, ht]; exact unpack_pack_zero _⟩
  | finite s F E hF => exact ⟨s * t, by rw [mul_eq, hu, ht]; exact unpack_pack_zero _⟩

end Products

end FiniteElements.Numeric
