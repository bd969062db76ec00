import Mathlib
import FiniteElements.Basis.Lagrange

/-!
# Whole numbers and their quotients as doubles

Node coordinates are the doubles `rational m N`, one rounded quotient each. On a face of the cell
a node has the normal coordinate `0` or `1`, computed as `rational 0 N` and `rational N N`; this
file shows, in Lean's logical model of doubles (`Float.Model`, `UnpackedFloat`), that these are
exactly `0` and `1` for every degree `1 ≤ N < 2^63`.

A whole number below `2^63` is converted in one of two ways: below `2^53` as a machine word times
the exact power `10^0`, above as `N · 2^53 · 10^0` rounded once. Either way it rounds with no
loss to a normal double, a mantissa of exactly 53 bits with a small exponent
(`roundWithAccuracy_normal`), which packing and unpacking keep (`unpack_pack_normal`); so
`Float.ofNat N` unpacks to a positive finite value (`unpack_ofNat`). Dividing such a value by
itself shifts its mantissa by 53 bits and divides exactly, to `2^53 · 2^-53` (`div_finite_self`),
and `+0` divided by it is `+0`.

## Main results

* `FiniteElements.Numeric.unpack_ofNat`
* `FiniteElements.Basis.rational_self`, `FiniteElements.Basis.rational_zero`
-/

namespace FiniteElements.Numeric

set_option autoImplicit false

open Float.Model Float.Model.UnpackedFloat

theorem mantissa_shiftRight (k : Nat) : ∀ em : ExtendedMantissa,
    (em >>> k).mantissa = em.mantissa / 2 ^ k := by
  induction k with
  | zero => intro em; simp [HShiftRight.hShiftRight, Nat.repeat]
  | succ k ih =>
    intro em
    show (ExtendedMantissa.shiftRightOne (em >>> k)).mantissa = _
    simp only [ExtendedMantissa.shiftRightOne, ih, Nat.div_div_eq_div_mul, Nat.pow_succ]

theorem mantissa_ofMantissaAndAccuracy (m : Nat) (a : Accuracy) :
    (ExtendedMantissa.ofMantissaAndAccuracy m a).mantissa = m := by
  cases a with
  | exact => rfl
  | inexact o => cases o <;> rfl

theorem roundToNearestEven_bounds (m : Nat) (a : Accuracy) :
    m ≤ a.roundToNearestEven m ∧ a.roundToNearestEven m ≤ m + 1 := by
  cases a with
  | exact => exact ⟨Nat.le_refl _, Nat.le_succ _⟩
  | inexact o => cases o <;> grind [Accuracy.roundToNearestEven]

theorem targetExponent_binary64 (t : Int) :
    Format.binary64.targetExponent t = max (t - 53) (-1074) := rfl

/-- The top 53 bits of a mantissa of at least 53 bits. -/
theorem log2_div_two_pow {M : Nat} (hM : 52 ≤ M.log2) : (M / 2 ^ (M.log2 - 52)).log2 = 52 := by
  have hM0 : M ≠ 0 := by rintro rfl; simp at hM
  have h1 := Nat.log2_self_le hM0
  have h2 := Nat.lt_log2_self (n := M)
  have hp : 0 < 2 ^ (M.log2 - 52) := Nat.two_pow_pos _
  have hlo : 2 ^ 52 ≤ M / 2 ^ (M.log2 - 52) := by
    rw [Nat.le_div_iff_mul_le hp, ← Nat.pow_add, show 52 + (M.log2 - 52) = M.log2 by omega]
    exact h1
  have hhi : M / 2 ^ (M.log2 - 52) < 2 ^ 53 := by
    rw [Nat.div_lt_iff_lt_mul hp, ← Nat.pow_add, show 53 + (M.log2 - 52) = M.log2 + 1 by omega]
    exact h2
  exact (Nat.log2_eq_iff (by omega)).2 ⟨hlo, hhi⟩

/-- Shifting a mantissa of at least 53 bits of a normal value to its target exponent keeps its top
53 bits. -/
theorem shiftToTargetExponent_eq {M : Nat} {E : Int} (acc : Accuracy) (hM : 52 ≤ M.log2)
    (hlo : -1021 ≤ (M.log2 : Int) + E) :
    shiftToTargetExponent Format.binary64 M E acc =
      (ExtendedMantissa.ofMantissaAndAccuracy M acc >>> (M.log2 - 52), E + (M.log2 - 52 : Nat)) := by
  unfold shiftToTargetExponent shiftToExponent
  have hk : (Format.binary64.targetExponent (totalExponent M E) - E).toNat = M.log2 - 52 := by
    rw [targetExponent_binary64, totalExponent]
    omega
  dsimp only
  rw [hk]

/-- **Rounding to a normal double.** A mantissa of at least 53 bits whose value lies in
`[1, 2^64)` rounds to a mantissa of exactly 53 bits at an exponent in `[-52, 12]`. -/
theorem roundWithAccuracy_normal (s : Sign) {M : Nat} (E : Int) (acc : Accuracy)
    (hM : 52 ≤ M.log2) (hlo : 0 ≤ (M.log2 : Int) + E) (hhi : (M.log2 : Int) + E ≤ 63) :
    ∃ F E' h, roundWithAccuracy Format.binary64 s M E acc = .finite s F E' h ∧ F.log2 = 52 ∧
      (M.log2 : Int) + E - 52 ≤ E' ∧ E' ≤ (M.log2 : Int) + E - 51 := by
  unfold roundWithAccuracy
  rw [shiftToTargetExponent_eq acc hM (by omega)]
  dsimp only
  generalize hR : (ExtendedMantissa.ofMantissaAndAccuracy M acc >>> (M.log2 - 52)).roundedMantissa = R
  -- rounding adds at most one unit to the top 53 bits
  have hR' : 2 ^ 52 ≤ R ∧ R ≤ 2 ^ 53 := by
    have hb := roundToNearestEven_bounds (M / 2 ^ (M.log2 - 52))
      (ExtendedMantissa.ofMantissaAndAccuracy M acc >>> (M.log2 - 52)).accuracy
    rw [← hR, ExtendedMantissa.roundedMantissa, mantissa_shiftRight, mantissa_ofMantissaAndAccuracy]
    have h52 := log2_div_two_pow hM
    have hne : M / 2 ^ (M.log2 - 52) ≠ 0 := by intro h; rw [h] at h52; simp at h52
    have := (Nat.log2_eq_iff hne).1 h52
    omega
  have hRlog : R.log2 = 52 ∨ R.log2 = 53 := by
    rcases Nat.lt_or_ge R (2 ^ 53) with h | h
    · exact .inl ((Nat.log2_eq_iff (by omega)).2 ⟨hR'.1, h⟩)
    · have : R = 2 ^ 53 := by omega
      subst this
      exact .inr Nat.log2_two_pow
  rw [shiftToTargetExponent_eq .exact (by omega) (by omega)]
  dsimp only
  rw [mantissa_shiftRight, mantissa_ofMantissaAndAccuracy]
  have hF := log2_div_two_pow (M := R) (by omega)
  have hF0 : R / 2 ^ (R.log2 - 52) ≠ 0 := by intro h; rw [h] at hF; simp at hF
  rw [dif_neg hF0]
  refine ⟨_, _, _, rfl, hF, by omega, by omega⟩

theorem ofBitVec_unpackSign_packComponents (s : Sign) (e : BitVec 11) (m : BitVec 52) :
    Sign.ofBitVec (@unpackSign Format.binary64 (packComponents Format.binary64 s e m)) = s := by
  simp only [unpackSign, packComponents, BitVec.extractLsb]
  rw [BitVec.extractLsb'_append_eq_of_le (by omega), BitVec.extractLsb'_append_eq_of_le (by omega)]
  cases s <;> rfl

/-- **A normal double unpacks to what was packed.** -/
theorem unpack_pack_normal (s : Sign) {F : Nat} {E : Int} (h : 0 < F) (hF : F.log2 = 52)
    (hlo : -1075 < E) (hhi : E ≤ 971) :
    UnpackedFloat.unpack Format.binary64 (UnpackedFloat.pack Format.binary64 (.finite s F E h)) = .finite s F E h := by
  have hF' := (Nat.log2_eq_iff (by omega)).1 hF
  have hbias : Format.binary64.exponentBias = 1023 := rfl
  unfold UnpackedFloat.pack
  dsimp only
  rw [hbias, if_neg (by omega), if_pos (by rw [hF]; rfl)]
  unfold UnpackedFloat.unpack
  simp only [unpackMantissa_packComponents, unpackExponent_packComponents,
    ofBitVec_unpackSign_packComponents]
  -- the biased exponent is neither that of zeros and subnormals nor that of infinities
  have hne1 : BitVec.ofNat 11 (E + ((1023 : Nat) : Int) + ((52 : Nat) : Int)).toNat ≠ -1#11 :=
    fun h1 => by
      have := congrArg BitVec.toNat h1
      simp at this
      omega
  have hne0 : BitVec.ofNat 11 (E + ((1023 : Nat) : Int) + ((52 : Nat) : Int)).toNat ≠ 0#11 :=
    fun h0 => by
      have := congrArg BitVec.toNat h0
      simp at this
      omega
  rw [if_neg hne1, if_neg hne0, UnpackedFloat.finite.injEq]
  refine ⟨rfl, ?_, ?_⟩
  · -- the implicit bit and the 52 stored bits give back the mantissa
    rw [BitVec.toNat_append, BitVec.toNat_ofNat, BitVec.toNat_ofNat]
    have hlt : F % 2 ^ 52 < 2 ^ 52 := Nat.mod_lt _ (Nat.two_pow_pos _)
    rw [show (1 % 2 ^ 1) <<< 52 = 2 ^ 52 by rfl, Nat.or_comm, Nat.or_two_pow_eq_add_of_lt hlt]
    have hp : (2 : Nat) ^ 52 = 4503599627370496 := by norm_num
    rw [hp] at hF' ⊢
    omega
  · rw [hbias]
    simp
    omega

theorem log2_shiftLeft {n : Nat} (hn : 0 < n) (k : Nat) : (n <<< k).log2 = n.log2 + k := by
  have h1 := Nat.log2_self_le (Nat.ne_of_gt hn)
  have h2 := Nat.lt_log2_self (n := n)
  rw [Nat.shiftLeft_eq]
  refine (Nat.log2_eq_iff (Nat.ne_of_gt (Nat.mul_pos hn (Nat.two_pow_pos k)))).2 ⟨?_, ?_⟩
  · rw [Nat.pow_add]
    exact Nat.mul_le_mul_right _ h1
  · rw [show n.log2 + k + 1 = n.log2 + 1 + k by omega, Nat.pow_add]
    exact Nat.mul_lt_mul_of_pos_right h2 (Nat.two_pow_pos k)

/-- A positive mantissa of at least 53 bits whose value lies in `[1, 2^63)` rounds and packs to a
positive normal double. -/
theorem unpack_pack_roundWithAccuracy {M : Nat} (E : Int) (acc : Accuracy)
    (hM : 52 ≤ M.log2) (hlo : 0 ≤ (M.log2 : Int) + E) (hhi : (M.log2 : Int) + E ≤ 62) :
    ∃ F E' h, (Float.Model.pack (roundWithAccuracy Format.binary64 .positive M E acc)).unpack =
      .finite .positive F E' h ∧ F.log2 = 52 ∧ (M.log2 : Int) + E - 52 ≤ E' ∧
        E' ≤ (M.log2 : Int) + E - 51 := by
  obtain ⟨F, E', h, hr, hF, hE⟩ := roundWithAccuracy_normal .positive E acc hM hlo (by omega)
  refine ⟨F, E', h, ?_, hF, hE⟩
  rw [hr, Float.Model.unpack, Float.Model.pack, UInt64.toBitVec_ofBitVec]
  exact unpack_pack_normal .positive h hF (by omega) (by omega)

/-- A whole number of at most 53 bits is a normal double, exactly. -/
theorem round_natCast {N : Nat} (h53 : N.log2 ≤ 52) :
    UnpackedFloat.round Format.binary64 .positive N 0 =
      roundWithAccuracy Format.binary64 .positive (N <<< (52 - N.log2)) ((N.log2 : Int) - 52) .exact := by
  unfold UnpackedFloat.round decreaseExponent
  have hk : (0 - Format.binary64.targetExponent (totalExponent N 0)).toNat = 52 - N.log2 := by
    rw [targetExponent_binary64, totalExponent]
    omega
  dsimp only
  rw [hk, show (0 : Int) - ((52 - N.log2 : Nat) : Int) = (N.log2 : Int) - 52 by omega]

/-- A positive machine word converts by rounding the whole number once. -/
theorem ofUInt64_eq_round {N : Nat} (h1 : 1 ≤ N) (h53 : N < 2 ^ 53) :
    Float.Model.ofUInt64 N.toUInt64 =
      Float.Model.pack (UnpackedFloat.round Format.binary64 .positive N 0) := by
  have hsize : 2 ^ 53 < UInt64.size := by decide
  have hN : N.toUInt64.toNat = N := UInt64.toNat_ofNat_of_lt (by omega)
  simp only [Float.Model.ofUInt64, UnpackedFloat.ofUInt64, UnpackedFloat.ofNat,
    UnpackedFloat.ofInt, hN]
  unfold UnpackedFloat.normalize
  rw [Int.compare_eq_gt.2 (by omega)]
  rfl

/-- A machine word of at most 53 bits converts to a normal double, exactly. -/
theorem unpack_ofUInt64 {N : Nat} (h1 : 1 ≤ N) (h53 : N < 2 ^ 53) :
    ∃ F E h, (Float.Model.ofUInt64 N.toUInt64).unpack = .finite .positive F E h ∧ F.log2 = 52 ∧
      -52 ≤ E ∧ E ≤ 1 := by
  have hlog : N.log2 ≤ 52 := Nat.le_of_lt_succ ((Nat.log2_lt (by omega)).2 h53)
  have hM : (N <<< (52 - N.log2)).log2 = 52 := by rw [log2_shiftLeft (by omega)]; omega
  obtain ⟨F, E, h, hu, hF, hE⟩ :=
    unpack_pack_roundWithAccuracy (M := N <<< (52 - N.log2)) ((N.log2 : Int) - 52) .exact
      (by omega) (by omega) (by omega)
  rw [hM] at hE
  refine ⟨F, E, h, ?_, hF, by omega, by omega⟩
  rw [ofUInt64_eq_round h1 h53, round_natCast hlog]
  exact hu

theorem unpack_powerOfTen_zero : (Float.exactlyRepresentablePowersOfTen[0]).toModel.unpack =
    .finite .positive (2 ^ 52) (-52) (Nat.two_pow_pos 52) := by
  rfl

/-- **Every whole number below `2^63` but zero is a positive finite double.** -/
theorem unpack_ofNat {N : Nat} (h1 : 1 ≤ N) (h63 : N < 2 ^ 63) :
    ∃ F E h, (Float.ofNat N).toModel.unpack = .finite .positive F E h := by
  have hN := Nat.log2_self_le (Nat.ne_of_gt h1)
  have hlog : N.log2 < 63 := (Nat.log2_lt (by omega)).2 h63
  unfold Float.ofNat
  show ∃ F E h, (Float.ofScientific N false 0).toModel.unpack = _
  unfold Float.ofScientific
  split
  · rename_i h53
    obtain ⟨F, E, h, hu, hF, hE⟩ := unpack_ofUInt64 h1 h53.1
    show ∃ F E h, (Float.Model.pack (UnpackedFloat.mul Format.binary64
      (Float.Model.ofUInt64 N.toUInt64).unpack
      (Float.exactlyRepresentablePowersOfTen[0]).toModel.unpack)).unpack = _
    rw [hu, unpack_powerOfTen_zero]
    simp only [UnpackedFloat.mul]
    -- below 2^53 the number is a machine word times the exact `10^0`, and that product is exact
    have hlog' : (F * 2 ^ 52).log2 = 104 := by
      rw [← Nat.shiftLeft_eq, log2_shiftLeft h, hF]
    obtain ⟨F', E', h', hu', -⟩ := unpack_pack_roundWithAccuracy (M := F * 2 ^ 52) (E + -52) .exact
      (by omega) (by omega) (by omega)
    exact ⟨F', E', h', hu'⟩
  · rename_i h53
    have hexp : (0 : Int) ≤ 2 ^ Format.binary64.exponentBits := by positivity
    show ∃ F E h, (Float.Model.pack (UnpackedFloat.ofScientific Format.binary64 N 0)).unpack = _
    unfold UnpackedFloat.ofScientific
    rw [dif_neg (by omega), if_neg (by omega), if_neg (by omega), if_pos (le_refl 0)]
    simp only [UnpackedFloat.mul]
    -- above 2^53 the number is built as `(N <<< 53) * 10^0`, exact again below 2^63
    have hbits : Format.binary64.mantissaBits = 53 := rfl
    have h53' : 53 ≤ N.log2 := by
      by_contra hlt
      exact h53 ⟨Nat.lt_of_lt_of_le Nat.lt_log2_self (Nat.pow_le_pow_right (by decide) (by omega)),
        by decide⟩
    have hlog' : (N <<< 53 * 10 ^ Int.toNat 0).log2 = N.log2 + 53 := by
      rw [Int.toNat_zero, Nat.pow_zero, Nat.mul_one, log2_shiftLeft (by omega)]
    rw [hbits]
    obtain ⟨F', E', h', hu', -⟩ := unpack_pack_roundWithAccuracy (M := N <<< 53 * 10 ^ Int.toNat 0)
      (-((53 : Nat) : Int) + 0) .exact (by omega) (by omega) (by omega)
    exact ⟨F', E', h', hu'⟩

/-- A positive finite value divided by itself is `2^53 · 2^-53`, exactly. -/
theorem div_finite_self (F : Nat) (E : Int) (h : 0 < F) :
    UnpackedFloat.div Format.binary64 (.finite .positive F E h) (.finite .positive F E h) =
      roundWithAccuracy Format.binary64 .positive (2 ^ 53) (-53) .exact := by
  -- both operands have the same exponent, so the quotient is shifted by the full 53 bits
  have ht : min (E - E) (Format.binary64.targetExponent (totalExponent F E - totalExponent F E)) =
      -53 := by
    rw [Int.sub_self, Int.sub_self, targetExponent_binary64]
    decide
  simp only [UnpackedFloat.div, divCore, ht]
  have hk : (E - E - -53).toNat = 53 := by omega
  rw [hk, Nat.shiftLeft_eq, Nat.mul_div_cancel_left _ h, Nat.mul_mod_right]
  rfl

end FiniteElements.Numeric

namespace FiniteElements.Basis

set_option autoImplicit false

open Float.Model Float.Model.UnpackedFloat

/-- **A degree divided by itself is exactly one.** -/
theorem rational_self {N : Nat} (h1 : 1 ≤ N) (h63 : N < 2 ^ 63) : rational N N = 1 := by
  obtain ⟨F, E, h, hu⟩ := Numeric.unpack_ofNat h1 h63
  show Float.ofModel (Float.Model.pack (UnpackedFloat.div Format.binary64
    (Float.ofNat N).toModel.unpack (Float.ofNat N).toModel.unpack)) = 1
  rw [hu, Numeric.div_finite_self]
  have hone : Float.Model.pack (roundWithAccuracy Format.binary64 .positive (2 ^ 53) (-53) .exact) =
      (1 : Float).toModel := by decide
  rw [hone]

/-- **Zero divided by a degree is exactly `+0`.** -/
theorem rational_zero {N : Nat} (h1 : 1 ≤ N) (h63 : N < 2 ^ 63) : rational 0 N = 0 := by
  obtain ⟨F, E, h, hu⟩ := Numeric.unpack_ofNat h1 h63
  show Float.ofModel (Float.Model.pack (UnpackedFloat.div Format.binary64
    (Float.ofNat 0).toModel.unpack (Float.ofNat N).toModel.unpack)) = 0
  have hzero : (Float.ofNat 0).toModel.unpack = .zero .positive := rfl
  have hdiv : UnpackedFloat.div Format.binary64 (.zero .positive) (.finite .positive F E h) =
      .zero .positive := rfl
  have hpack : Float.Model.pack (.zero .positive) = (0 : Float).toModel := by decide
  rw [hu, hzero, hdiv, hpack]

end FiniteElements.Basis
