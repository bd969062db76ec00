import Mathlib

/-!
# Adding to `+0` and IEEE equality of doubles

Constraint weights are read once as they are and once as sums started from `+0`, and compared
with IEEE `==`. This file relates the two readings in Lean's logical model of doubles
(`Float.Model`, `UnpackedFloat`).

Unpacking the bits of a double and packing the result again gives back the bits
(`pack_unpack_of_valid`): the model keeps one `NaN`, and every other pattern is an infinity, a
zero, a subnormal or a normal number that packing writes back field by field. Adding to `+0`
changes nothing but the sign of a zero (`zero_add_of_not_zero`, `zero_add_of_zero`). IEEE `==`
holds between two numbers that are not `NaN` and are equal or both zeros (`float_beq_iff`), so
it is symmetric and transitive, blind to the sign of a zero, and the same on sums from `+0`
(`zero_add_beq_zero_add`).

## Main results

* `FiniteElements.Numeric.pack_unpack_of_valid`
* `FiniteElements.Numeric.float_beq_iff`, `float_beq_symm`, `float_beq_trans`
* `FiniteElements.Numeric.zero_add_beq_zero`, `zero_add_beq_zero_add`
-/

namespace FiniteElements.Numeric

set_option autoImplicit false

open Float.Model Float.Model.UnpackedFloat

section Bits

theorem toBitVec_ofBitVec : ∀ S : BitVec 1, (Sign.ofBitVec S).toBitVec = S := by decide

/-- A double is its sign, exponent and mantissa fields written side by side. -/
theorem packComponents_unpack (b : BitVec Format.binary64.numBits) :
    packComponents Format.binary64 (Sign.ofBitVec (unpackSign b)) (unpackExponent b)
      (unpackMantissa b) = b := by
  rw [packComponents, toBitVec_ofBitVec]
  ext i hi
  have hi : i < 64 := hi
  simp only [unpackSign, unpackExponent, unpackMantissa, BitVec.getElem_append]
  simp [← BitVec.getLsbD_eq_getElem]
  split_ifs
  · simp [show i ≤ 51 by omega]
  · simp [show i ≤ 62 by omega, show 52 + (i - 52) = i by omega]
  · simp [show i = 63 by omega]

/-- **Packing undoes unpacking** on the bits of every double of the model. -/
theorem pack_unpack_of_valid (b : BitVec Format.binary64.numBits) (hv : Format.binary64.Valid b) :
    UnpackedFloat.pack Format.binary64 (UnpackedFloat.unpack Format.binary64 b) = b := by
  have hbias : Format.binary64.exponentBias = 1023 := rfl
  have hbits : Format.binary64.mantissaBits = 53 := rfl
  have hElt : (unpackExponent b).toNat < 2048 := (unpackExponent b).isLt
  have hMlt : (unpackMantissa b).toNat < 2 ^ 52 := (unpackMantissa b).isLt
  unfold UnpackedFloat.unpack
  dsimp only
  split_ifs with hE hM hE0 hM0
  · conv_rhs => rw [← packComponents_unpack b]
    simp [UnpackedFloat.pack, packedInfinity, hE, hM]
  · simp only [UnpackedFloat.pack]
    exact (hv.eq_packedNaN hE hM).symm
  · conv_rhs => rw [← packComponents_unpack b]
    simp [UnpackedFloat.pack, packedZero, hE0, hM0]
  · -- a subnormal: the biased exponent is `1` and the mantissa has fewer than 53 bits
    conv_rhs => rw [← packComponents_unpack b, hE0]
    have hM0' : (unpackMantissa b).toNat ≠ 0 := fun h =>
      hM0 (BitVec.eq_of_toNat_eq (by simpa using h))
    have hlog : (unpackMantissa b).toNat.log2 < 52 := (Nat.log2_lt hM0').2 hMlt
    simp [UnpackedFloat.pack, hE0, hbias, hbits]
    omega
  · -- a normal number: the implicit bit makes the mantissa exactly 53 bits long
    conv_rhs => rw [← packComponents_unpack b]
    have hEne : (unpackExponent b).toNat ≠ 2047 := fun h =>
      hE (BitVec.eq_of_toNat_eq (by simpa using h))
    have hval : (1#1 ++ unpackMantissa b).toNat = 2 ^ 52 + (unpackMantissa b).toNat := by
      rw [BitVec.toNat_append]
      simp only [BitVec.toNat_ofNat, Nat.shiftLeft_eq]
      rw [Nat.or_comm, show 1 % 2 ^ 1 * 2 ^ 52 = 2 ^ 52 by norm_num,
        Nat.or_two_pow_eq_add_of_lt hMlt, Nat.add_comm]
    have hlog : (1#1 ++ unpackMantissa b).toNat.log2 = 52 := by
      rw [Nat.log2_eq_iff (by omega)]
      constructor <;> omega
    have hbiased : ((unpackExponent b).toNat - 1075 + 1023 + 52 : Int).toNat =
        (unpackExponent b).toNat := by omega
    have hset : BitVec.setWidth 52 (1#1 ++ unpackMantissa b) = unpackMantissa b := by
      apply BitVec.eq_of_toNat_eq
      rw [BitVec.toNat_setWidth, hval]
      omega
    simp only [UnpackedFloat.pack, hbias, hbits, hlog]
    simp [hbiased, show ¬2047 ≤ (unpackExponent b).toNat by omega, hset]

theorem model_pack_unpack (m : Float.Model) : Float.Model.pack m.unpack = m := by
  obtain ⟨bits, hv⟩ := m
  simp only [Float.Model.pack, Float.Model.unpack]
  congr 1
  rw [pack_unpack_of_valid _ hv]

end Bits

section Equality

/-- IEEE `==` on unpacked doubles: neither is `NaN`, and both are equal or both are zeros. -/
theorem unpacked_beq_iff (a b : UnpackedFloat) : (a.compare b == some .eq) = true ↔
    a ≠ .notANumber ∧ (a = b ∨ ∃ s t, a = .zero s ∧ b = .zero t) := by
  rcases a with ⟨s⟩ | _ | ⟨s⟩ | ⟨s, m, e, hm⟩ <;> rcases b with ⟨t⟩ | _ | ⟨t⟩ | ⟨t, n, f, hn⟩ <;>
    (try cases s) <;> (try cases t) <;> simp [UnpackedFloat.compare, and_comm] <;> rfl

theorem float_beq_iff (x y : Float) : (x == y) = true ↔ x.toModel.unpack ≠ .notANumber ∧
    (x.toModel.unpack = y.toModel.unpack ∨
      ∃ s t, x.toModel.unpack = .zero s ∧ y.toModel.unpack = .zero t) :=
  unpacked_beq_iff _ _

theorem float_beq_symm {x y : Float} (h : (x == y) = true) : (y == x) = true := by
  rw [float_beq_iff] at h ⊢
  obtain ⟨hx, hxy | ⟨s, t, hs, ht⟩⟩ := h
  · exact ⟨hxy ▸ hx, .inl hxy.symm⟩
  · exact ⟨by simp [ht], .inr ⟨t, s, ht, hs⟩⟩

theorem float_beq_comm (x y : Float) : (x == y) = (y == x) :=
  Bool.eq_iff_iff.2 ⟨float_beq_symm, float_beq_symm⟩

theorem float_beq_trans {x y z : Float} (hxy : (x == y) = true) (hyz : (y == z) = true) :
    (x == z) = true := by
  rw [float_beq_iff] at hxy hyz ⊢
  obtain ⟨hx, hxy | ⟨s, t, hs, ht⟩⟩ := hxy <;> obtain ⟨-, hyz | ⟨t', u, ht', hu⟩⟩ := hyz
  · exact ⟨hx, .inl (hxy.trans hyz)⟩
  · exact ⟨hx, .inr ⟨t', u, hxy.trans ht', hu⟩⟩
  · exact ⟨hx, .inr ⟨s, t, hs, hyz ▸ ht⟩⟩
  · exact ⟨hx, .inr ⟨s, u, hs, hu⟩⟩

/-- IEEE-equal doubles are zero together. -/
theorem float_beq_zero_of_beq {x y : Float} (h : (x == y) = true) : (x == 0) = (y == 0) :=
  Bool.eq_iff_iff.2 ⟨fun hx => float_beq_trans (float_beq_symm h) hx, fun hy => float_beq_trans h hy⟩

theorem unpack_zero : (0 : Float).toModel.unpack = .zero .positive := rfl

theorem float_beq_zero_iff (x : Float) : (x == 0) = true ↔ ∃ s, x.toModel.unpack = .zero s := by
  rw [float_beq_iff, unpack_zero]
  constructor
  · rintro ⟨-, h | ⟨s, -, hs, -⟩⟩
    · exact ⟨_, h⟩
    · exact ⟨s, hs⟩
  · rintro ⟨s, hs⟩
    exact ⟨by simp [hs], .inr ⟨s, _, hs, rfl⟩⟩

/-- Against a zero, `==` does not see the sign. -/
theorem float_beq_of_zero {x : Float} {s : Sign} (hx : x.toModel.unpack = .zero s) (y : Float) :
    (x == y) = (0 == y) := by
  rw [Bool.eq_iff_iff, float_beq_iff, float_beq_iff, hx, unpack_zero]
  constructor
  · rintro ⟨-, h | ⟨-, t, -, ht⟩⟩
    · exact ⟨by simp, .inr ⟨_, s, rfl, h.symm⟩⟩
    · exact ⟨by simp, .inr ⟨_, t, rfl, ht⟩⟩
  · rintro ⟨-, h | ⟨-, t, -, ht⟩⟩
    · exact ⟨by simp, .inr ⟨_, _, rfl, h.symm⟩⟩
    · exact ⟨by simp, .inr ⟨_, t, rfl, ht⟩⟩

end Equality

section ZeroAdd

theorem zero_add_eq (x : Float) : 0 + x =
    .ofModel (Float.Model.pack (UnpackedFloat.add Format.binary64 (.zero .positive) x.toModel.unpack)) := by
  show Float.ofModel (Float.Model.pack _) = _
  rw [unpack_zero]

/-- `+0 + x` is `x` unless `x` is a zero. -/
theorem zero_add_of_not_zero {x : Float} (h : ∀ s, x.toModel.unpack ≠ .zero s) : 0 + x = x := by
  have hadd : UnpackedFloat.add Format.binary64 (.zero .positive) x.toModel.unpack =
      x.toModel.unpack := by
    cases hu : x.toModel.unpack with
    | zero s => exact absurd hu (h s)
    | _ => rfl
  rw [zero_add_eq, hadd, model_pack_unpack]

/-- `+0 + x` is `+0` when `x` is a zero of either sign. -/
theorem zero_add_of_zero {x : Float} {s : Sign} (h : x.toModel.unpack = .zero s) : 0 + x = 0 := by
  have hadd : UnpackedFloat.add Format.binary64 (.zero .positive) (.zero s) = .zero .positive := by
    cases s <;> rfl
  rw [zero_add_eq, h, hadd, ← unpack_zero, model_pack_unpack]

theorem zero_add_beq_zero (x : Float) : (0 + x == 0) = (x == 0) := by
  by_cases hx : ∃ s, x.toModel.unpack = .zero s
  · obtain ⟨s, hs⟩ := hx
    rw [zero_add_of_zero hs, (float_beq_zero_iff x).2 ⟨s, hs⟩]
    rfl
  · rw [zero_add_of_not_zero fun s hs => hx ⟨s, hs⟩]

theorem zero_add_bne_zero (x : Float) : (0 + x != 0) = (x != 0) := by
  simp only [bne, zero_add_beq_zero]

/-- **IEEE `==` is the same on sums from `+0`.** -/
theorem zero_add_beq_zero_add (x y : Float) : (0 + x == 0 + y) = (x == y) := by
  by_cases hx : ∃ s, x.toModel.unpack = .zero s <;> by_cases hy : ∃ s, y.toModel.unpack = .zero s
  · obtain ⟨s, hs⟩ := hx
    obtain ⟨t, ht⟩ := hy
    rw [zero_add_of_zero hs, zero_add_of_zero ht, float_beq_of_zero hs,
      float_beq_symm ((float_beq_zero_iff y).2 ⟨t, ht⟩)]
    rfl
  · obtain ⟨s, hs⟩ := hx
    rw [zero_add_of_zero hs, zero_add_of_not_zero fun t ht => hy ⟨t, ht⟩, float_beq_of_zero hs]
  · obtain ⟨t, ht⟩ := hy
    rw [zero_add_of_not_zero fun s hs => hx ⟨s, hs⟩, zero_add_of_zero ht, float_beq_comm x 0,
      float_beq_comm x y, float_beq_of_zero ht]
  · rw [zero_add_of_not_zero fun s hs => hx ⟨s, hs⟩, zero_add_of_not_zero fun t ht => hy ⟨t, ht⟩]

end ZeroAdd

end FiniteElements.Numeric
