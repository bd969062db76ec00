import FiniteElements.Proofs.Numeric.Product

/-!
# One rounding of binary64 arithmetic

Every operation on doubles computes an exact intermediate value and rounds it once: a product
multiplies the mantissas, a difference subtracts the mantissas aligned to the smaller exponent,
and a quotient divides the mantissas with enough bits and remembers whether a remainder was left
(`divCore`). This file reads Lean's logical model of doubles (`Float.Model`, `UnpackedFloat`) as
exact rational arithmetic and bounds that one rounding: a value `r` below `2^1023` in magnitude
rounds to a finite double within `|r| / 2^52 + 2^-1074` of it, subnormals and zeros included.

A double that is a number, a zero of either sign included, has a rational value (`HasValue`).
Rounding `M · 2^E` shifts the mantissa right to the exponent `T` the format asks for, rounds the
kept bits up by at most one unit `2^T` and, where that carries into a 54th bit, shifts once more
with nothing lost (`roundWithAccuracy_spec`). The unit is at most `|r| / 2^52` for a normal value
and `2^-1074` below (`two_zpow_target_le`), and a value below `2^1023` keeps `T ≤ 970`, so the
result packs and unpacks to itself (`unpack_pack_of_isRounded`). So the product, difference and
quotient of two numbers are numbers close to the exact ones (`hasValue_mul`, `hasValue_sub`,
`hasValue_div`), and a whole number below `2^53` converts exactly (`hasValue_ofNat`).

## Main definitions

* `FiniteElements.Numeric.signValue`, `unpackedValue`, `HasValue`

## Main results

* `FiniteElements.Numeric.roundWithAccuracy_spec`, `roundWithAccuracy_near`, `round_near`
* `FiniteElements.Numeric.hasValue_mul`, `hasValue_sub`, `hasValue_div`
* `FiniteElements.Numeric.hasValue_ofNat`
-/

namespace FiniteElements.Numeric

set_option autoImplicit false

open Float.Model Float.Model.UnpackedFloat

/-- The sign of a double as the factor `±1`. -/
def signValue : Sign → ℚ
  | .positive => 1
  | .negative => -1

/-- The number an unpacked double stands for: `±m · 2^e` for a finite value and `0` for a zero of
either sign; infinities and `NaN` stand for none. -/
def unpackedValue : UnpackedFloat → Option ℚ
  | .zero _ => some 0
  | .finite s m e _ => some (signValue s * ((m : ℚ) * 2 ^ e))
  | _ => none

/-- The double `x` is a number, a zero included, of value `q`. -/
def HasValue (x : Float) (q : ℚ) : Prop :=
  unpackedValue x.toModel.unpack = some q

section Values

theorem abs_signValue (s : Sign) : |signValue s| = 1 := by
  cases s <;> simp [signValue]

theorem signValue_mul (s t : Sign) : signValue (s * t) = signValue s * signValue t := by
  cases s <;> cases t <;> norm_num [signValue]

theorem signValue_div (s t : Sign) : signValue (s / t) = signValue s * signValue t := by
  cases s <;> cases t <;> norm_num [signValue] <;> rfl

theorem signValue_neg (s : Sign) : signValue (-s) = -signValue s := by
  cases s <;> norm_num [signValue]

theorem isFinite_of_hasValue {x : Float} {q : ℚ} (h : HasValue x q) : x.isFinite = true := by
  have hx : x.toModel.unpack.isFinite = true := by
    unfold HasValue at h
    cases hu : x.toModel.unpack <;> simp_all [unpackedValue, UnpackedFloat.isFinite]
  exact hx

/-- A number is a zero of some sign or a finite double. -/
theorem hasValue_cases {x : Float} {a : ℚ} (h : HasValue x a) :
    (∃ s, x.toModel.unpack = .zero s ∧ a = 0) ∨
      ∃ s F E hF, x.toModel.unpack = .finite s F E hF ∧
        a = signValue s * ((F : ℚ) * 2 ^ E) := by
  unfold HasValue at h
  cases hu : x.toModel.unpack with
  | zero s => exact .inl ⟨s, rfl, by simp_all [unpackedValue]⟩
  | finite s F E hF => exact .inr ⟨s, F, E, hF, rfl, by simp_all [unpackedValue]⟩
  | infinity s => simp [hu, unpackedValue] at h
  | notANumber => simp [hu, unpackedValue] at h

theorem hasValue_one : HasValue 1 1 := by
  simp [HasValue, unpack_one, unpackedValue, signValue]
  norm_num

end Values

section Packing

theorem unpack_model_pack (u : UnpackedFloat) :
    (Float.Model.pack u).unpack =
      UnpackedFloat.unpack Format.binary64 (UnpackedFloat.pack Format.binary64 u) := by
  rw [Float.Model.unpack, Float.Model.pack, UInt64.toBitVec_ofBitVec]

/-- **A finite double has an exponent of at most `971`**: a larger one packs to an infinity. -/
theorem exponent_le_of_unpack {x : Float.Model} {s : Sign} {F : Nat} {E : Int} {hF : 0 < F}
    (h : x.unpack = .finite s F E hF) : E ≤ 971 := by
  by_contra hE
  have hbias : Format.binary64.exponentBias = 1023 := rfl
  have hbits : UnpackedFloat.pack Format.binary64 (.finite s F E hF) =
      packedInfinity Format.binary64 s := by
    unfold UnpackedFloat.pack
    dsimp only
    rw [hbias, if_pos (by simp; omega)]
  have hinf : UnpackedFloat.unpack Format.binary64 (packedInfinity Format.binary64 s) =
      .infinity s := by
    cases s <;> rfl
  have hu : x.unpack = .infinity s := by
    rw [← model_pack_unpack x, h, unpack_model_pack, hbits, hinf]
  rw [h] at hu
  cases hu

/-- **A subnormal double unpacks to what was packed.** -/
theorem unpack_pack_subnormal (s : Sign) {F : Nat} (h : 0 < F) (hF : F < 2 ^ 52) :
    UnpackedFloat.unpack Format.binary64
      (UnpackedFloat.pack Format.binary64 (.finite s F (-1074) h)) = .finite s F (-1074) h := by
  have hlog : F.log2 < 52 := (Nat.log2_lt (by omega)).2 hF
  have hbias : Format.binary64.exponentBias = 1023 := rfl
  unfold UnpackedFloat.pack
  dsimp only
  have hbits : Format.binary64.mantissaBits = 53 := rfl
  rw [hbias, if_neg (by decide), if_neg (by rw [hbits]; omega)]
  unfold UnpackedFloat.unpack
  simp only [unpackMantissa_packComponents, unpackExponent_packComponents,
    ofBitVec_unpackSign_packComponents]
  -- the stored bits are the whole mantissa, at the biased exponent of subnormals
  have hne : BitVec.ofNat 52 F ≠ 0#52 := fun h0 => by
    have := congrArg BitVec.toNat h0
    simp at this
    omega
  rw [if_neg (by decide), if_pos trivial, dif_neg hne, UnpackedFloat.finite.injEq]
  refine ⟨rfl, ?_, ?_⟩
  · simp
    omega
  · simp [hbias]

/-- **A rounded finite value unpacks to what was packed**, while its exponent is at most `971`. -/
theorem unpack_pack_of_isRounded (s : Sign) {F : Nat} {E : Int} (h : 0 < F) (hR : IsRounded F E)
    (hE : E ≤ 971) : (Float.Model.pack (.finite s F E h)).unpack = .finite s F E h := by
  rw [unpack_model_pack]
  unfold IsRounded at hR
  rw [targetExponent_binary64, totalExponent] at hR
  -- a normal value has 53 bits, a subnormal one fewer at the least exponent
  have hlt := Nat.lt_log2_self (n := F)
  rcases Nat.lt_or_ge F.log2 52 with hlog | hlog
  · obtain rfl : E = -1074 := by omega
    exact unpack_pack_subnormal s h
      (lt_of_lt_of_le hlt (Nat.pow_le_pow_right (by decide) (by omega)))
  · exact unpack_pack_normal s h (by omega) (by omega) hE

end Packing

section Rounding

theorem target_eq (M : Nat) (E : Int) :
    Format.binary64.targetExponent (totalExponent M E) = max ((M.log2 : Int) + E - 52) (-1074) := by
  rw [targetExponent_binary64, totalExponent]
  omega

/-- The second shift of rounding leaves a mantissa of at most 53 bits where it is. -/
theorem shiftToTargetExponent_of_lt {R : Nat} {T : Int} (hT : -1074 ≤ T) (hR : R < 2 ^ 53) :
    shiftToTargetExponent Format.binary64 R T .exact = (⟨R, false, false⟩, T) := by
  have hlog : R.log2 ≤ 52 := by
    rcases Nat.eq_zero_or_pos R with rfl | hpos
    · simp
    · exact Nat.le_of_lt_succ ((Nat.log2_lt (by omega)).2 hR)
  have hk : (Format.binary64.targetExponent (totalExponent R T) - T).toNat = 0 := by
    rw [target_eq]
    omega
  simp only [shiftToTargetExponent, shiftToExponent, hk, Int.natCast_zero, Int.add_zero]
  rfl

/-- The second shift of rounding moves a carry into the 54th bit up by one place, exactly. -/
theorem shiftToTargetExponent_carry {T : Int} (hT : -1074 ≤ T) :
    shiftToTargetExponent Format.binary64 (2 ^ 53) T .exact =
      (⟨2 ^ 52, false, false⟩, T + 1) := by
  have hk : (Format.binary64.targetExponent (totalExponent (2 ^ 53) T) - T).toNat = 1 := by
    rw [target_eq, Nat.log2_two_pow]
    omega
  simp only [shiftToTargetExponent, shiftToExponent, hk]
  rfl

/-- **Rounding in two shifts.** Rounding `M · 2^E` from an exponent `E` no larger than its target
exponent `T` keeps `R`, the top bits `M / 2^(T - E)` rounded up by at most one unit: a zero
where `R = 0`, and otherwise a rounded double of value `R · 2^T` at the exponent `T`, or `T + 1`
where `R` carried into a 54th bit. -/
theorem roundWithAccuracy_spec (s : Sign) {M : Nat} {E : Int} (acc : Accuracy)
    (hE : E ≤ Format.binary64.targetExponent (totalExponent M E)) :
    ∃ R : Nat, M / 2 ^ (Format.binary64.targetExponent (totalExponent M E) - E).toNat ≤ R ∧
      R ≤ M / 2 ^ (Format.binary64.targetExponent (totalExponent M E) - E).toNat + 1 ∧
      ((R = 0 ∧ roundWithAccuracy Format.binary64 s M E acc = .zero s) ∨
        ∃ F E' h, roundWithAccuracy Format.binary64 s M E acc = .finite s F E' h ∧
          IsRounded F E' ∧ E' ≤ Format.binary64.targetExponent (totalExponent M E) + 1 ∧
          (F : ℚ) * 2 ^ E' = R * 2 ^ Format.binary64.targetExponent (totalExponent M E)) := by
  have hT' := target_eq M E
  generalize hT : Format.binary64.targetExponent (totalExponent M E) = T at hE hT' ⊢
  obtain ⟨k, hk⟩ : ∃ k, k = (T - E).toNat := ⟨_, rfl⟩
  rw [← hk]
  -- the first shift keeps the top bits of `M` at `T`, and rounding adds at most one unit
  have hfirst : shiftToTargetExponent Format.binary64 M E acc =
      (ExtendedMantissa.ofMantissaAndAccuracy M acc >>> k, T) := by
    simp only [shiftToTargetExponent, shiftToExponent, hT, ← hk]
    congr 1
    omega
  obtain ⟨R, hR⟩ :
      ∃ R, R = (ExtendedMantissa.ofMantissaAndAccuracy M acc >>> k).roundedMantissa :=
    ⟨_, rfl⟩
  have hmant : (ExtendedMantissa.ofMantissaAndAccuracy M acc >>> k).mantissa = M / 2 ^ k := by
    rw [mantissa_shiftRight, mantissa_ofMantissaAndAccuracy]
  have hRb : M / 2 ^ k ≤ R ∧ R ≤ M / 2 ^ k + 1 := by
    rw [hR, ExtendedMantissa.roundedMantissa, ← hmant]
    exact roundToNearestEven_bounds _ _
  have htop : M / 2 ^ k < 2 ^ 53 := by
    rw [Nat.div_lt_iff_lt_mul (Nat.two_pow_pos k), ← Nat.pow_add]
    exact lt_of_lt_of_le Nat.lt_log2_self (Nat.pow_le_pow_right (by decide) (by omega))
  refine ⟨R, hRb.1, hRb.2, ?_⟩
  rw [roundWithAccuracy, hfirst]
  dsimp only
  rw [← hR]
  rcases Nat.lt_or_ge R (2 ^ 53) with hlt | hge
  · rw [shiftToTargetExponent_of_lt (by omega) hlt]
    dsimp only
    by_cases h0 : R = 0
    · exact .inl ⟨h0, by simp [h0]⟩
    refine .inr ⟨R, T, Nat.pos_of_ne_zero h0, by simp [h0], ?_, by omega, rfl⟩
    -- a normal value keeps all 53 top bits; a subnormal one sits at the least exponent
    unfold IsRounded
    rw [target_eq]
    rcases le_or_gt ((M.log2 : Int) + E - 52) (-1074) with hsub | hnorm
    · have hlog : R.log2 ≤ 52 := Nat.le_of_lt_succ ((Nat.log2_lt h0).2 hlt)
      omega
    · have h52 : (M / 2 ^ k).log2 = 52 := by
        rw [show k = M.log2 - 52 by omega]
        exact log2_div_two_pow (by omega)
      have hlo := (Nat.log2_eq_iff (fun h => by rw [h] at h52; simp at h52)).1 h52
      have hlog : R.log2 = 52 := (Nat.log2_eq_iff h0).2 ⟨by omega, hlt⟩
      omega
  · obtain hR53 : R = 2 ^ 53 := by omega
    rw [hR53, shiftToTargetExponent_carry (by omega)]
    dsimp only
    refine .inr ⟨2 ^ 52, T + 1, Nat.two_pow_pos 52, by simp, ?_, le_refl _, ?_⟩
    · unfold IsRounded
      rw [target_eq, Nat.log2_two_pow]
      omega
    · push_cast
      rw [zpow_add_one₀ two_ne_zero]
      ring

theorem two_zpow_log2_le {M : Nat} (hM : 0 < M) (E : Int) :
    (2 : ℚ) ^ ((M.log2 : Int) + E) ≤ M * 2 ^ E := by
  rw [zpow_add₀ two_ne_zero, zpow_natCast]
  exact mul_le_mul_of_nonneg_right (by exact_mod_cast Nat.log2_self_le hM.ne') (by positivity)

/-- **The unit of rounding** `2^T` is at most `r / 2^52` for a value `r ≥ M · 2^E` of normal
size, and `2^-1074` below. -/
theorem two_zpow_target_le {M : Nat} {E : Int} {r : ℚ}
    (hE : E ≤ Format.binary64.targetExponent (totalExponent M E))
    (hlo : (M : ℚ) * 2 ^ E ≤ r) :
    (2 : ℚ) ^ Format.binary64.targetExponent (totalExponent M E) ≤
      r / 2 ^ 52 + 1 / 2 ^ 1074 := by
  rw [target_eq] at hE ⊢
  have hr : 0 ≤ r := le_trans (by positivity) hlo
  rcases le_or_gt ((M.log2 : Int) + E - 52) (-1074) with hsub | hnorm
  · rw [max_eq_right hsub, zpow_neg, zpow_ofNat, ← one_div]
    exact le_add_of_nonneg_left (by positivity)
  · rw [max_eq_left hnorm.le]
    -- a zero mantissa would sit below its own target exponent
    have hM : 0 < M := by
      rcases Nat.eq_zero_or_pos M with rfl | h
      · simp only [Nat.log2_zero, Nat.cast_zero, zero_add] at hnorm hE
        omega
      · exact h
    calc (2 : ℚ) ^ ((M.log2 : Int) + E - 52) = 2 ^ ((M.log2 : Int) + E) / 2 ^ 52 := by
          rw [zpow_sub₀ two_ne_zero]
          norm_cast
      _ ≤ M * 2 ^ E / 2 ^ 52 := by gcongr; exact two_zpow_log2_le hM E
      _ ≤ r / 2 ^ 52 := by gcongr
      _ ≤ r / 2 ^ 52 + 1 / 2 ^ 1074 := le_add_of_nonneg_right (by positivity)

/-- A value below `2^1023` has a target exponent of at most `970`. -/
theorem target_le_of_lt {M : Nat} {E : Int} {r : ℚ}
    (hE : E ≤ Format.binary64.targetExponent (totalExponent M E)) (hlo : (M : ℚ) * 2 ^ E ≤ r)
    (hr : r < 2 ^ 1023) : Format.binary64.targetExponent (totalExponent M E) ≤ 970 := by
  rw [target_eq] at hE ⊢
  rcases Nat.eq_zero_or_pos M with rfl | hM
  · simp only [Nat.log2_zero, Nat.cast_zero, zero_add] at hE ⊢
    omega
  · have h := lt_of_le_of_lt (le_trans (two_zpow_log2_le hM E) hlo) hr
    rw [← zpow_natCast] at h
    have h' := (zpow_lt_zpow_iff_right₀ (by norm_num : (1 : ℚ) < 2)).1 h
    push_cast at h'
    omega

/-- **Rounding once.** A mantissa `M` at an exponent `E` no larger than its target exponent stands
for each value `r` in `[M · 2^E, (M + 1) · 2^E)`; below `2^1023` such a value rounds with the sign
`s` to a number within `r / 2^52 + 2^-1074` of `±r`. -/
theorem roundWithAccuracy_near (s : Sign) {M : Nat} {E : Int} (acc : Accuracy) {r : ℚ}
    (hE : E ≤ Format.binary64.targetExponent (totalExponent M E))
    (hlo : (M : ℚ) * 2 ^ E ≤ r) (hhi : r < ((M : ℚ) + 1) * 2 ^ E) (hr : r < 2 ^ 1023) :
    ∃ q, unpackedValue (Float.Model.pack (roundWithAccuracy Format.binary64 s M E acc)).unpack =
        some q ∧ |q - signValue s * r| ≤ r / 2 ^ 52 + 1 / 2 ^ 1074 := by
  have hunit := two_zpow_target_le hE hlo
  have h970 := target_le_of_lt hE hlo hr
  obtain ⟨R, hR1, hR2, hcases⟩ := roundWithAccuracy_spec s acc hE
  generalize Format.binary64.targetExponent (totalExponent M E) = T at hE hunit h970 hR1 hR2 hcases
  obtain ⟨k, hk⟩ : ∃ k, k = (T - E).toNat := ⟨_, rfl⟩
  rw [← hk] at hR1 hR2
  -- `R · 2^T` and `r` lie in one interval `[d · 2^T, (d + 1) · 2^T]` of the kept top bits `d`
  have herr : |(R : ℚ) * 2 ^ T - r| ≤ 2 ^ T := by
    have hpow : (2 : ℚ) ^ T = 2 ^ E * 2 ^ k := by
      rw [← zpow_natCast, ← zpow_add₀ two_ne_zero]
      congr 1
      omega
    have hp : (0 : ℚ) < 2 ^ E := by positivity
    have hd1 : ((M / 2 ^ k : ℕ) : ℚ) * 2 ^ k ≤ M := by
      exact_mod_cast Nat.div_mul_le_self M (2 ^ k)
    have hd2 : (M : ℚ) + 1 ≤ ((M / 2 ^ k : ℕ) + 1 : ℚ) * 2 ^ k := by
      have := Nat.lt_mul_div_succ M (Nat.two_pow_pos k)
      exact_mod_cast (by rw [Nat.mul_comm]; omega : M + 1 ≤ (M / 2 ^ k + 1) * 2 ^ k)
    have h1 : ((M / 2 ^ k : ℕ) : ℚ) * 2 ^ T ≤ r := by
      rw [hpow]
      calc ((M / 2 ^ k : ℕ) : ℚ) * (2 ^ E * 2 ^ k) = ((M / 2 ^ k : ℕ) * 2 ^ k) * 2 ^ E := by
            ring
        _ ≤ M * 2 ^ E := mul_le_mul_of_nonneg_right hd1 hp.le
        _ ≤ r := hlo
    have h2 : r ≤ ((M / 2 ^ k : ℕ) + 1 : ℚ) * 2 ^ T := by
      rw [hpow]
      calc r ≤ ((M : ℚ) + 1) * 2 ^ E := hhi.le
        _ ≤ (((M / 2 ^ k : ℕ) + 1 : ℚ) * 2 ^ k) * 2 ^ E :=
            mul_le_mul_of_nonneg_right hd2 hp.le
        _ = _ := by ring
    have hpT : (0 : ℚ) ≤ 2 ^ T := by positivity
    have h3 := mul_le_mul_of_nonneg_right
      (by exact_mod_cast hR1 : ((M / 2 ^ k : ℕ) : ℚ) ≤ R) hpT
    have h4 := mul_le_mul_of_nonneg_right
      (by exact_mod_cast hR2 : (R : ℚ) ≤ (M / 2 ^ k : ℕ) + 1) hpT
    rw [abs_le]
    constructor <;> nlinarith
  have hclose :
      |signValue s * ((R : ℚ) * 2 ^ T) - signValue s * r| ≤ r / 2 ^ 52 + 1 / 2 ^ 1074 := by
    rw [← mul_sub, abs_mul, abs_signValue, one_mul]
    exact le_trans herr hunit
  rcases hcases with ⟨rfl, hz⟩ | ⟨F, E', hF, hround, hrounded, hE', hval⟩
  · refine ⟨0, by rw [hz, unpack_pack_zero]; rfl, ?_⟩
    simpa using hclose
  · refine ⟨signValue s * ((F : ℚ) * 2 ^ E'), ?_, by rw [hval]; exact hclose⟩
    rw [hround, unpack_pack_of_isRounded s hF hrounded (by omega)]
    rfl

/-- **Rounding an exact value.** A positive mantissa `M` at any exponent `E`, of value below
`2^1023`, rounds with the sign `s` to a number within `M · 2^E / 2^52 + 2^-1074` of `±M · 2^E`:
the mantissa is first widened to its target exponent, which keeps its value. -/
theorem round_near (s : Sign) {M : Nat} (hM : 0 < M) (E : Int) (hr : (M : ℚ) * 2 ^ E < 2 ^ 1023) :
    ∃ q, unpackedValue (Float.Model.pack (UnpackedFloat.round Format.binary64 s M E)).unpack =
        some q ∧ |q - signValue s * (M * 2 ^ E)| ≤ M * 2 ^ E / 2 ^ 52 + 1 / 2 ^ 1074 := by
  obtain ⟨j, hj⟩ : ∃ j, j = (E - Format.binary64.targetExponent (totalExponent M E)).toNat :=
    ⟨_, rfl⟩
  have hround : UnpackedFloat.round Format.binary64 s M E =
      roundWithAccuracy Format.binary64 s (M <<< j) (E - j) .exact := by
    simp only [UnpackedFloat.round, decreaseExponent, ← hj]
  have hval : ((M <<< j : ℕ) : ℚ) * 2 ^ (E - j) = M * 2 ^ E := by
    rw [Nat.shiftLeft_eq, zpow_sub₀ two_ne_zero, zpow_natCast]
    push_cast
    field_simp
  have htot : totalExponent (M <<< j) (E - j) = totalExponent M E := by
    simp only [totalExponent, log2_shiftLeft hM]
    push_cast
    ring
  have hE : E - j ≤ Format.binary64.targetExponent (totalExponent (M <<< j) (E - j)) := by
    rw [htot]
    omega
  have hp : (0 : ℚ) < 2 ^ (E - j) := by positivity
  rw [hround]
  exact roundWithAccuracy_near s .exact hE hval.le
    (by rw [add_mul, one_mul, hval]; linarith) hr

/-- Rounding the magnitude `M` of a signed mantissa `m = ±M` with its sign rounds `m · 2^e`. -/
theorem round_near_signed (s : Sign) {M : Nat} {m : Int} (hM : 0 < M) (e : Int)
    (hm : (m : ℚ) = signValue s * M) (hr : |(m : ℚ) * 2 ^ e| < 2 ^ 1023) :
    ∃ q, unpackedValue (Float.Model.pack (UnpackedFloat.round Format.binary64 s M e)).unpack =
      some q ∧ |q - m * 2 ^ e| ≤ |(m : ℚ) * 2 ^ e| / 2 ^ 52 + 1 / 2 ^ 1074 := by
  have hval : (m : ℚ) * 2 ^ e = signValue s * (M * 2 ^ e) := by rw [hm, mul_assoc]
  have habs : |(m : ℚ) * 2 ^ e| = M * 2 ^ e := by
    rw [hval, abs_mul, abs_signValue, one_mul, abs_of_nonneg (by positivity)]
  rw [habs] at hr ⊢
  rw [hval]
  exact round_near s hM e hr

/-- A signed mantissa `m` at the exponent `e` normalizes to a number within
`|m · 2^e| / 2^52 + 2^-1074` of `m · 2^e`, while that value is below `2^1023`. -/
theorem normalize_near (m e : Int) (zs : Sign) (hr : |(m : ℚ) * 2 ^ e| < 2 ^ 1023) :
    ∃ q,
      unpackedValue (Float.Model.pack (UnpackedFloat.normalize Format.binary64 m e zs)).unpack =
        some q ∧
      |q - m * 2 ^ e| ≤ |(m : ℚ) * 2 ^ e| / 2 ^ 52 + 1 / 2 ^ 1074 := by
  unfold UnpackedFloat.normalize
  rcases lt_trichotomy m 0 with hneg | rfl | hpos
  · rw [Int.compare_eq_lt.2 hneg]
    refine round_near_signed .negative (by omega) e ?_ hr
    have hcast : (((-m).toNat : ℕ) : ℚ) = -m := by exact_mod_cast Int.toNat_of_nonneg (by omega)
    rw [hcast, signValue]
    ring
  · refine ⟨0, ?_, by simp⟩
    rw [show compare (0 : Int) 0 = .eq from rfl, unpack_pack_zero]
    rfl
  · rw [Int.compare_eq_gt.2 hpos]
    refine round_near_signed .positive (by omega) e ?_ hr
    have hcast : ((m.toNat : ℕ) : ℚ) = m := by exact_mod_cast Int.toNat_of_nonneg hpos.le
    rw [hcast, signValue, one_mul]

end Rounding

section Operations

theorem sub_eq (x y : Float) : x - y =
    .ofModel (Float.Model.pack (UnpackedFloat.sub Format.binary64 x.toModel.unpack
      y.toModel.unpack)) := rfl

theorem div_eq (x y : Float) : x / y =
    .ofModel (Float.Model.pack (UnpackedFloat.div Format.binary64 x.toModel.unpack
      y.toModel.unpack)) := rfl

/-- The value of a packed result is the value of its unpacking. -/
theorem hasValue_ofModel_pack {u : UnpackedFloat} {c : ℚ} :
    HasValue (.ofModel (Float.Model.pack u)) c ↔
      unpackedValue (Float.Model.pack u).unpack = some c := Iff.rfl

/-- A finite double packs back to itself. -/
theorem unpackedValue_pack_finite {x : Float} {s : Sign} {F : Nat} {E : Int} {hF : 0 < F}
    (h : x.toModel.unpack = .finite s F E hF) (t : Sign) :
    unpackedValue (Float.Model.pack (.finite t F E hF)).unpack =
      some (signValue t * ((F : ℚ) * 2 ^ E)) := by
  rw [unpack_pack_of_isRounded t hF (isRounded_of_unpack h) (exponent_le_of_unpack h)]
  rfl

theorem unpackedValue_pack_zero (s : Sign) :
    unpackedValue (Float.Model.pack (.zero s)).unpack = some 0 := by
  rw [unpack_pack_zero]
  rfl

/-- Two finite doubles have an exponent no larger than the target exponent of their exact
product: one of them has 53 bits, or both sit at the least exponent. -/
theorem exponent_le_target_mul {F G : Nat} {E E' : Int} (hF : 0 < F) (hG : 0 < G)
    (hRF : IsRounded F E) (hRG : IsRounded G E') :
    E + E' ≤ Format.binary64.targetExponent (totalExponent (F * G) (E + E')) := by
  unfold IsRounded at hRF hRG
  rw [target_eq] at hRF hRG ⊢
  have hFG : F * G ≠ 0 := by positivity
  have h1 : F.log2 ≤ (F * G).log2 :=
    (Nat.le_log2 hFG).2 (le_trans (Nat.log2_self_le hF.ne') (Nat.le_mul_of_pos_right F hG))
  have h2 : G.log2 ≤ (F * G).log2 :=
    (Nat.le_log2 hFG).2 (le_trans (Nat.log2_self_le hG.ne') (Nat.le_mul_of_pos_left G hF))
  omega

/-- **Multiplication rounds once.** The product of two numbers whose exact product is below
`2^1023` in magnitude is a number within `|a b| / 2^52 + 2^-1074` of it. -/
theorem hasValue_mul {x y : Float} {a b : ℚ} (hx : HasValue x a) (hy : HasValue y b)
    (hab : |a * b| < 2 ^ 1023) :
    ∃ c, HasValue (x * y) c ∧ |c - a * b| ≤ |a * b| / 2 ^ 52 + 1 / 2 ^ 1074 := by
  have hpos : (0 : ℚ) ≤ |a * b| / 2 ^ 52 + 1 / 2 ^ 1074 := by positivity
  simp only [mul_eq, hasValue_ofModel_pack]
  rcases hasValue_cases hx with ⟨s, hu, rfl⟩ | ⟨s, F, E, hF, hu, rfl⟩ <;>
    rcases hasValue_cases hy with ⟨t, hv, rfl⟩ | ⟨t, G, E', hG, hv, rfl⟩ <;>
    rw [hu, hv]
  · exact ⟨0, unpackedValue_pack_zero _, by simp⟩
  · exact ⟨0, unpackedValue_pack_zero _, by simp⟩
  · exact ⟨0, unpackedValue_pack_zero _, by simp⟩
  -- two finite values: the exact product of the mantissas, rounded once
  have hval : signValue s * ((F : ℚ) * 2 ^ E) * (signValue t * ((G : ℚ) * 2 ^ E')) =
      signValue (s * t) * (((F * G : ℕ) : ℚ) * 2 ^ (E + E')) := by
    rw [signValue_mul, zpow_add₀ two_ne_zero]
    push_cast
    ring
  have habs : |signValue s * ((F : ℚ) * 2 ^ E) * (signValue t * ((G : ℚ) * 2 ^ E'))| =
      ((F * G : ℕ) : ℚ) * 2 ^ (E + E') := by
    rw [hval, abs_mul, abs_signValue, one_mul, abs_of_nonneg (by positivity)]
  rw [habs] at hab ⊢
  rw [hval]
  obtain ⟨q, hq, herr⟩ := roundWithAccuracy_near (s * t) .exact
    (exponent_le_target_mul hF hG (isRounded_of_unpack hu) (isRounded_of_unpack hv)) le_rfl
    (by rw [add_mul, one_mul]; linarith [show (0 : ℚ) < 2 ^ (E + E') by positivity]) hab
  exact ⟨q, hq, herr⟩

/-- A mantissa widened to a smaller exponent keeps its value. -/
theorem signValue_aligned (s : Sign) (F : Nat) {E e : Int} (he : e ≤ E) :
    ((s.apply ((F <<< (E - e).toNat : ℕ) : ℤ) : ℤ) : ℚ) * 2 ^ e =
      signValue s * (F * 2 ^ E) := by
  have hpow : (2 : ℚ) ^ E = 2 ^ ((E - e).toNat : ℕ) * 2 ^ e := by
    rw [← zpow_natCast, ← zpow_add₀ two_ne_zero]
    congr 1
    omega
  rw [Nat.shiftLeft_eq, hpow]
  cases s <;> simp [Sign.apply, signValue] <;> ring

/-- **Subtraction rounds once.** The difference of two numbers below `2^1023` in magnitude is a
number within `|a - b| / 2^52 + 2^-1074` of it. -/
theorem hasValue_sub {x y : Float} {a b : ℚ} (hx : HasValue x a) (hy : HasValue y b)
    (hab : |a - b| < 2 ^ 1023) :
    ∃ c, HasValue (x - y) c ∧ |c - (a - b)| ≤ |a - b| / 2 ^ 52 + 1 / 2 ^ 1074 := by
  have hpos : (0 : ℚ) ≤ |a - b| / 2 ^ 52 + 1 / 2 ^ 1074 := by positivity
  simp only [sub_eq, hasValue_ofModel_pack]
  rcases hasValue_cases hx with ⟨s, hu, rfl⟩ | ⟨s, F, E, hF, hu, rfl⟩ <;>
    rcases hasValue_cases hy with ⟨t, hv, rfl⟩ | ⟨t, G, E', hG, hv, rfl⟩ <;>
    rw [hu, hv]
  · refine ⟨0, ?_, le_trans (le_of_eq (by simp)) hpos⟩
    simp only [UnpackedFloat.sub]
    split <;> exact unpackedValue_pack_zero _
  · exact ⟨_, unpackedValue_pack_finite hv (-t),
      le_trans (le_of_eq (by simp [signValue_neg])) hpos⟩
  · exact ⟨_, unpackedValue_pack_finite hu s, le_trans (le_of_eq (by simp)) hpos⟩
  -- two finite values: the difference of the mantissas aligned to the smaller exponent
  obtain ⟨m, hm⟩ : ∃ m : ℤ, m = s.apply ((F <<< (E - min E E').toNat : ℕ) : ℤ) -
      t.apply ((G <<< (E' - min E E').toNat : ℕ) : ℤ) := ⟨_, rfl⟩
  have hsub : UnpackedFloat.sub Format.binary64 (.finite s F E hF) (.finite t G E' hG) =
      UnpackedFloat.normalize Format.binary64 m (min E E') .positive := by
    rw [hm]
    rfl
  have hval : (m : ℚ) * 2 ^ (min E E') =
      signValue s * ((F : ℚ) * 2 ^ E) - signValue t * ((G : ℚ) * 2 ^ E') := by
    rw [hm, Int.cast_sub, sub_mul, signValue_aligned s F (min_le_left E E'),
      signValue_aligned t G (min_le_right E E')]
  rw [hsub]
  rw [← hval] at hab ⊢
  exact normalize_near m (min E E') .positive hab

/-- The quotient `divCore` leaves: a mantissa `q` at an exponent `tE` no larger than its target
exponent, the exact quotient of the two values lying in `[q · 2^tE, (q + 1) · 2^tE)`. -/
theorem divCore_spec {F G : Nat} (hF : 0 < F) (hG : 0 < G) (E E' : Int) :
    ∃ q tE acc, divCore Format.binary64 F E G E' = (q, tE, acc) ∧
      tE ≤ Format.binary64.targetExponent (totalExponent q tE) ∧
      (q : ℚ) * 2 ^ tE ≤ F * 2 ^ E / (G * 2 ^ E') ∧
      F * 2 ^ E / (G * 2 ^ E') < ((q : ℚ) + 1) * 2 ^ tE := by
  obtain ⟨tE, htE⟩ : ∃ tE, tE = min (E - E')
      (Format.binary64.targetExponent (totalExponent F E - totalExponent G E')) := ⟨_, rfl⟩
  obtain ⟨j, hj⟩ : ∃ j, j = (E - E' - tE).toNat := ⟨_, rfl⟩
  refine ⟨(F <<< j) / G, tE, accuracyOfFraction ((F <<< j) % G) G, by subst htE hj; rfl, ?_, ?_⟩
  · rw [target_eq]
    rw [targetExponent_binary64, totalExponent, totalExponent] at htE
    by_cases hlow : tE ≤ -1074
    · omega
    -- above the subnormals the shift leaves the quotient at least 53 bits
    have hq : 2 ^ 52 ≤ (F <<< j) / G := by
      rw [Nat.le_div_iff_mul_le hG, Nat.shiftLeft_eq]
      calc 2 ^ 52 * G ≤ 2 ^ 52 * 2 ^ (G.log2 + 1) := Nat.mul_le_mul_left _ Nat.lt_log2_self.le
        _ = 2 ^ (G.log2 + 53) := by rw [← Nat.pow_add]; ring_nf
        _ ≤ 2 ^ (F.log2 + j) := Nat.pow_le_pow_right (by decide) (by omega)
        _ = 2 ^ F.log2 * 2 ^ j := Nat.pow_add _ _ _
        _ ≤ F * 2 ^ j := Nat.mul_le_mul_right _ (Nat.log2_self_le hF.ne')
    have := (Nat.le_log2 (by have := Nat.two_pow_pos 52; omega)).2 hq
    omega
  -- the exact quotient is `F · 2^j / G` units of `2^tE`
  have hj' : ((j : ℕ) : ℤ) = E - E' - tE := by
    rw [htE] at hj ⊢
    omega
  have hquot : (F : ℚ) * 2 ^ E / (G * 2 ^ E') = ((F <<< j : ℕ) : ℚ) / G * 2 ^ tE := by
    rw [Nat.shiftLeft_eq]
    push_cast
    rw [← zpow_natCast, hj', zpow_sub₀ two_ne_zero, zpow_sub₀ two_ne_zero]
    field_simp
  have hGq : (0 : ℚ) < G := by exact_mod_cast hG
  have hp : (0 : ℚ) < 2 ^ tE := by positivity
  rw [hquot]
  constructor
  · have h := Nat.div_mul_le_self (F <<< j) G
    have h' : (((F <<< j) / G : ℕ) : ℚ) ≤ ((F <<< j : ℕ) : ℚ) / G := by
      rw [le_div_iff₀ hGq]
      exact_mod_cast h
    exact mul_le_mul_of_nonneg_right h' hp.le
  · have h := Nat.lt_mul_div_succ (F <<< j) hG
    have h' : ((F <<< j : ℕ) : ℚ) / G < (((F <<< j) / G : ℕ) : ℚ) + 1 := by
      rw [div_lt_iff₀ hGq]
      have : ((F <<< j : ℕ) : ℚ) < G * ((((F <<< j) / G : ℕ) : ℚ) + 1) := by
        exact_mod_cast h
      linarith
    exact mul_lt_mul_of_pos_right h' hp

/-- **Division rounds once.** The quotient of a number by a nonzero number, below `2^1023` in
magnitude, is a number within `|a / b| / 2^52 + 2^-1074` of it. -/
theorem hasValue_div {x y : Float} {a b : ℚ} (hx : HasValue x a) (hy : HasValue y b)
    (hb : b ≠ 0) (hab : |a / b| < 2 ^ 1023) :
    ∃ c, HasValue (x / y) c ∧ |c - a / b| ≤ |a / b| / 2 ^ 52 + 1 / 2 ^ 1074 := by
  have hpos : (0 : ℚ) ≤ |a / b| / 2 ^ 52 + 1 / 2 ^ 1074 := by positivity
  simp only [div_eq, hasValue_ofModel_pack]
  rcases hasValue_cases hy with ⟨t, hv, rfl⟩ | ⟨t, G, E', hG, hv, rfl⟩
  · exact absurd rfl hb
  rcases hasValue_cases hx with ⟨s, hu, rfl⟩ | ⟨s, F, E, hF, hu, rfl⟩ <;> rw [hu, hv]
  · exact ⟨0, unpackedValue_pack_zero _, by simp⟩
  -- two finite values: the mantissa quotient with enough bits, rounded once
  obtain ⟨q, tE, acc, hdiv, hE, hlo, hhi⟩ := divCore_spec hF hG E E'
  have hval : signValue s * ((F : ℚ) * 2 ^ E) / (signValue t * ((G : ℚ) * 2 ^ E')) =
      signValue (s / t) * (F * 2 ^ E / (G * 2 ^ E')) := by
    rw [signValue_div]
    cases t <;> simp [signValue] <;> ring
  have habs : |signValue s * ((F : ℚ) * 2 ^ E) / (signValue t * ((G : ℚ) * 2 ^ E'))| =
      F * 2 ^ E / (G * 2 ^ E') := by
    rw [hval, abs_mul, abs_signValue, one_mul, abs_of_nonneg (by positivity)]
  rw [habs] at hab ⊢
  rw [hval]
  obtain ⟨c, hc, herr⟩ := roundWithAccuracy_near (s / t) acc hE hlo hhi hab
  refine ⟨c, ?_, herr⟩
  simp only [UnpackedFloat.div, hdiv]
  exact hc

end Operations

section Bounds

theorem one_div_two_pow_le {a b : ℕ} (h : a ≤ b) : (1 : ℚ) / 2 ^ b ≤ 1 / 2 ^ a :=
  one_div_le_one_div_of_le (by positivity) (pow_le_pow_right₀ one_le_two h)

/-- A unit `2^-1074` is below a `2^52`-th of every value of at least one. -/
theorem one_div_two_pow_1074_le {R : ℚ} (hR : 1 ≤ R) : 1 / 2 ^ 1074 ≤ R / 2 ^ 52 :=
  le_trans (one_div_two_pow_le (by norm_num)) (div_le_div_of_nonneg_right hR (by positivity))

/-- **The upper bound of a rounded value.** What rounds from a value of magnitude at most `R ≥ 1`
is at most `R + R / 2^51`. -/
theorem abs_le_of_near {c r R : ℚ} (h : |c - r| ≤ |r| / 2 ^ 52 + 1 / 2 ^ 1074) (hr : |r| ≤ R)
    (hR : 1 ≤ R) : |c| ≤ R + R / 2 ^ 51 := by
  have hunit := one_div_two_pow_1074_le hR
  have hc : |c| ≤ |r| + |c - r| := by
    have := abs_sub_abs_le_abs_sub c r
    linarith
  have hr' : |r| / 2 ^ 52 ≤ R / 2 ^ 52 := div_le_div_of_nonneg_right hr (by positivity)
  generalize (1 : ℚ) / 2 ^ 1074 = u at h hunit
  linarith

/-- **The lower bound of a rounded value.** What rounds from a value of magnitude at least
`2^-1000` is at least that magnitude less a `2^51`-th. -/
theorem le_abs_of_near {c r : ℚ} (h : |c - r| ≤ |r| / 2 ^ 52 + 1 / 2 ^ 1074)
    (hr : 1 / 2 ^ 1000 ≤ |r|) : |r| - |r| / 2 ^ 51 ≤ |c| := by
  -- the unit `2^-1074` is below `|r| / 2^52`, since `|r| ≥ 2^-1000`
  have hunit : 1 / 2 ^ 1074 ≤ |r| / 2 ^ 52 :=
    calc (1 : ℚ) / 2 ^ 1074 = 1 / 2 ^ 1000 / 2 ^ 74 := by rw [div_div, ← pow_add]
      _ ≤ |r| / 2 ^ 74 := div_le_div_of_nonneg_right hr (by positivity)
      _ ≤ |r| / 2 ^ 52 := div_le_div_of_nonneg_left (abs_nonneg r) (by positivity)
          (pow_le_pow_right₀ one_le_two (by norm_num))
  have hc : |r| ≤ |c| + |c - r| := by
    have := abs_sub_abs_le_abs_sub r c
    rw [abs_sub_comm] at this
    linarith
  generalize (1 : ℚ) / 2 ^ 1074 = u at h hunit
  linarith

end Bounds

section Conversion

/-- **A whole number below `2^53` converts exactly**, to its 53-bit mantissa
`n · 2^(52 - log n)` at the exponent `log n - 52`: the machine word rounds with nothing lost, and
multiplying by the exact `10^0` keeps it. -/
theorem unpack_ofNat_eq {n : Nat} (h1 : 1 ≤ n) (h53 : n < 2 ^ 53) :
    (Float.ofNat n).toModel.unpack = .finite .positive (n <<< (52 - n.log2)) ((n.log2 : Int) - 52)
      (by rw [Nat.shiftLeft_eq]; positivity) := by
  have hlog : n.log2 ≤ 52 := Nat.le_of_lt_succ ((Nat.log2_lt (by omega)).2 h53)
  have hpos : 0 < n <<< (52 - n.log2) := by rw [Nat.shiftLeft_eq]; positivity
  have hF : (n <<< (52 - n.log2)).log2 = 52 := by rw [log2_shiftLeft (by omega)]; omega
  have hR : IsRounded (n <<< (52 - n.log2)) ((n.log2 : Int) - 52) := by
    unfold IsRounded
    rw [target_eq, hF]
    omega
  have hword : (Float.Model.ofUInt64 n.toUInt64).unpack =
      .finite .positive (n <<< (52 - n.log2)) ((n.log2 : Int) - 52) hpos := by
    have hs := roundWithAccuracy_scaled .positive hpos hR 0
    simp only [pow_zero, mul_one, Nat.cast_zero, sub_zero] at hs
    rw [ofUInt64_eq_round h1 h53, round_natCast hlog, hs,
      unpack_pack_of_isRounded .positive hpos hR (by omega)]
  unfold Float.ofNat
  show (Float.ofScientific n false 0).toModel.unpack = _
  unfold Float.ofScientific
  rw [dif_pos ⟨h53, by decide⟩]
  show (Float.Model.pack (UnpackedFloat.mul Format.binary64 (Float.Model.ofUInt64 n.toUInt64).unpack
    (Float.exactlyRepresentablePowersOfTen[0]).toModel.unpack)).unpack = _
  have hs := roundWithAccuracy_scaled .positive hpos hR 52
  rw [hword, unpack_powerOfTen_zero]
  simp only [UnpackedFloat.mul, mul_positive]
  rw [show (n.log2 : Int) - 52 + -52 = (n.log2 : Int) - 52 - ((52 : ℕ) : ℤ) by omega, hs,
    unpack_pack_of_isRounded .positive hpos hR (by omega)]

theorem hasValue_ofNat {n : Nat} (h53 : n < 2 ^ 53) : HasValue (Float.ofNat n) n := by
  rcases Nat.eq_zero_or_pos n with rfl | h1
  · rfl
  unfold HasValue
  rw [unpack_ofNat_eq h1 h53]
  have hlog : n.log2 ≤ 52 := Nat.le_of_lt_succ ((Nat.log2_lt (by omega)).2 h53)
  -- `n · 2^(52 - log n) · 2^(log n - 52) = n`
  have hval : ((n <<< (52 - n.log2) : ℕ) : ℚ) * 2 ^ ((n.log2 : Int) - 52) = n := by
    have hexp : ((52 - n.log2 : ℕ) : ℤ) + ((n.log2 : Int) - 52) = 0 := by omega
    rw [Nat.shiftLeft_eq, Nat.cast_mul, Nat.cast_pow, Nat.cast_two, mul_assoc, ← zpow_natCast,
      ← zpow_add₀ two_ne_zero, hexp, zpow_zero, mul_one]
  simp only [unpackedValue, signValue, one_mul, hval]

end Conversion

end FiniteElements.Numeric
