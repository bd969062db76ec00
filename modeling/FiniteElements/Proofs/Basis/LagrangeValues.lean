import FiniteElements.Proofs.Numeric.Rounding

/-!
# Lagrange values stay finite

Basis function `b` of degree `N` is evaluated as a running product from `1`: for each other node
`x_m`, in increasing order, it multiplies by `(x - x_m) / (x_b - x_m)`, every operation rounded.
This file shows that for every degree `1 ≤ N ≤ 200` and every point `x` within `2^-51` of the
unit interval (`NearUnit`), none of these products overflows: the value is a finite double.

Each node `rational m N` is within `2^-51` of `m / N` (`hasValue_rational`). So the numerator of
the factor of node `m` is at most `3/2` in magnitude, its denominator at least `3/4` of
`|b - m| / N`, and the rounded factor at most `3N / |b - m|` (`hasValue_factor`); multiplying it in
grows the running product by at most `4N / |b - m|` (`factorBound`, `hasValue_step`). By induction
along the nodes the running product stays below the product of these growths
(`hasValue_foldl_prefix`), which is `(4N)^N / (b! (N - b)!)` (`prod_factorBound`), at most `24^N`
since `N^N ≤ 3^N N!` and `C(N, b) ≤ 2^N` (`prod_factorBound_le`), and below `2^1000` for
`N ≤ 200`.

## Main definitions

* `FiniteElements.Basis.factorBound`, `FiniteElements.Basis.NearUnit`

## Main results

* `FiniteElements.Basis.hasValue_rational`, `hasValue_factor`, `hasValue_step`
* `FiniteElements.Basis.prod_factorBound`, `prod_factorBound_le`
* `FiniteElements.Basis.isFinite_evalAt`
-/

namespace FiniteElements.Basis

set_option autoImplicit false

open FiniteElements.Numeric Finset

open scoped Nat

/-- How much basis function `b` of degree `N` may grow at the factor of node `m`: `4N / |b - m|`,
and not at all at its own node. -/
def factorBound (N b m : Nat) : ℚ := if m = b then 1 else 4 * N / |(b : ℚ) - m|

/-- The number `ξ` lies within `2^-51` of the unit interval, as the nodes and the points the
basis is evaluated at do. -/
def NearUnit (ξ : ℚ) : Prop := -(1 / 2 ^ 51) ≤ ξ ∧ ξ ≤ 1 + 1 / 2 ^ 51

section Nodes

/-- **A quotient of whole numbers** `t ≤ n < 2^53` is a number within `2^-51` of `t / n`. -/
theorem hasValue_rational {t n : Nat} (ht : t ≤ n) (hn : 1 ≤ n) (h53 : n < 2 ^ 53) :
    ∃ ξ, HasValue (rational t n) ξ ∧ |ξ - t / n| ≤ 1 / 2 ^ 51 := by
  have hn' : (0 : ℚ) < n := by exact_mod_cast hn
  have h0 : (0 : ℚ) ≤ t / n := by positivity
  have h1 : (t : ℚ) / n ≤ 1 := div_le_one_of_le₀ (by exact_mod_cast ht) hn'.le
  have hbig : (1 : ℚ) < 2 ^ 1023 := one_lt_pow₀ one_lt_two (by norm_num)
  obtain ⟨ξ, hξ, herr⟩ :=
    hasValue_div (hasValue_ofNat (n := t) (by omega)) (hasValue_ofNat h53)
    hn'.ne' (by rw [abs_of_nonneg h0]; exact lt_of_le_of_lt h1 hbig)
  refine ⟨ξ, hξ, ?_⟩
  rw [abs_of_nonneg h0] at herr
  have hunit := one_div_two_pow_1074_le (R := 1) le_rfl
  have hq : (t : ℚ) / n / 2 ^ 52 ≤ 1 / 2 ^ 52 := div_le_div_of_nonneg_right h1 (by positivity)
  generalize (1 : ℚ) / 2 ^ 1074 = u at herr hunit
  linarith

/-- The nodes and the point lie within `2^-51` of the unit interval. -/
theorem near_unit_of_rational {t n : Nat} {ξ : ℚ} (ht : t ≤ n) (hn : 1 ≤ n)
    (h : |ξ - t / n| ≤ 1 / 2 ^ 51) : NearUnit ξ := by
  have h0 : (0 : ℚ) ≤ t / n := by positivity
  have h1 : (t : ℚ) / n ≤ 1 := div_le_one_of_le₀ (by exact_mod_cast ht) (by positivity)
  rw [abs_le] at h
  constructor <;> linarith

end Nodes

section Factors

variable {N b m : Nat}

theorem abs_sub_nat_le (hb : b ≤ N) (hm : m ≤ N) : |(b : ℚ) - m| ≤ N := by
  have hb' : (b : ℚ) ≤ N := by exact_mod_cast hb
  have hm' : (m : ℚ) ≤ N := by exact_mod_cast hm
  rw [abs_le]
  constructor <;>
    linarith [(Nat.cast_nonneg b : (0 : ℚ) ≤ b), (Nat.cast_nonneg m : (0 : ℚ) ≤ m)]

/-- Two distinct nodes are at least one unit `1/N` apart. -/
theorem one_le_abs_sub (hmb : m ≠ b) : (1 : ℚ) ≤ |(b : ℚ) - m| := by
  have h : (1 : ℤ) ≤ |(b : ℤ) - m| :=
    Int.one_le_abs (sub_ne_zero.2 (by exact_mod_cast hmb.symm))
  exact_mod_cast h

theorem one_le_factorBound (hb : b ≤ N) (hm : m ≤ N) : 1 ≤ factorBound N b m := by
  unfold factorBound
  split_ifs with hmb
  · exact le_rfl
  have hd : (0 : ℚ) < |(b : ℚ) - m| := lt_of_lt_of_le one_pos (one_le_abs_sub hmb)
  rw [le_div_iff₀ hd]
  linarith [abs_sub_nat_le hb hm]

theorem two_lt_two_pow_1023 : (2 : ℚ) < 2 ^ 1023 := by
  simpa using pow_lt_pow_right₀ one_lt_two (by norm_num : 1 < 1023)

/-- **The numerator** `x - x_m` of a factor is a number of magnitude at most `3/2`. -/
theorem hasValue_numerator (hN : 1 ≤ N) (h53 : N < 2 ^ 53) (hm : m ≤ N) {x : Float} {ξ : ℚ}
    (hx : HasValue x ξ) (hξ : NearUnit ξ) :
    ∃ p, HasValue (x - rational m N) p ∧ |p| ≤ 3 / 2 := by
  obtain ⟨hlo, hhi⟩ := hξ
  obtain ⟨ξm, hxm, herrm⟩ := hasValue_rational hm hN h53
  obtain ⟨hm0, hm1⟩ := near_unit_of_rational hm hN herrm
  have hr : |ξ - ξm| ≤ 1 + 2 / 2 ^ 51 := by
    rw [abs_le]
    constructor <;> linarith
  have hr2 : 1 + 2 / 2 ^ 51 ≤ (2 : ℚ) := by norm_num
  obtain ⟨p, hp, herrp⟩ :=
    hasValue_sub hx hxm (lt_of_le_of_lt (hr.trans hr2) two_lt_two_pow_1023)
  refine ⟨p, hp, le_trans (abs_le_of_near herrp hr (by norm_num)) (by norm_num)⟩

/-- **The denominator** `x_b - x_m` of a factor is a number at least `3/4` of the nodes' distance
`|b - m| / N`: that distance is at least `1/N`, far above the nodes' errors of `2^-51`. -/
theorem hasValue_denominator (hN : 1 ≤ N) (hN' : N ≤ 2 ^ 40) (hb : b ≤ N) (hm : m ≤ N)
    (hmb : m ≠ b) :
    ∃ e, HasValue (rational b N - rational m N) e ∧ 3 / 4 * (|(b : ℚ) - m| / N) ≤ |e| := by
  have hNq : (0 : ℚ) < N := by exact_mod_cast hN
  obtain ⟨ξm, hxm, herrm⟩ := hasValue_rational hm hN (by omega)
  obtain ⟨ξb, hxb, herrb⟩ := hasValue_rational hb hN (by omega)
  obtain ⟨hm0, hm1⟩ := near_unit_of_rational hm hN herrm
  obtain ⟨hb0, hb1⟩ := near_unit_of_rational hb hN herrb
  have hδ : 1 / 2 ^ 40 ≤ |(b : ℚ) - m| / N :=
    le_trans (one_div_le_one_div_of_le hNq (by exact_mod_cast hN'))
      (div_le_div_of_nonneg_right (one_le_abs_sub hmb) hNq.le)
  have hgap : 7 / 8 * (|(b : ℚ) - m| / N) ≤ |ξb - ξm| := by
    have h1 : |((b : ℚ) - m) / N| = |(b : ℚ) - m| / N := by rw [abs_div, abs_of_pos hNq]
    have h2 := abs_sub_abs_le_abs_sub (((b : ℚ) - m) / N) (ξb - ξm)
    have h3 : ((b : ℚ) - m) / N - (ξb - ξm) = -((ξb - b / N) - (ξm - m / N)) := by ring
    rw [h1, h3, abs_neg] at h2
    have h4 := abs_sub (ξb - b / N) (ξm - m / N)
    have h5 : (2 : ℚ) / 2 ^ 51 ≤ 1 / 8 * (1 / 2 ^ 40) := by norm_num
    linarith
  have hr : |ξb - ξm| ≤ 2 := by
    rw [abs_le]
    constructor <;> linarith
  obtain ⟨e, he, herre⟩ := hasValue_sub hxb hxm (lt_of_le_of_lt hr two_lt_two_pow_1023)
  refine ⟨e, he, ?_⟩
  have hsmall : 1 / 2 ^ 1000 ≤ |ξb - ξm| := by
    have h1 : (1 : ℚ) / 2 ^ 1000 ≤ 1 / 2 ^ 41 := one_div_two_pow_le (by norm_num)
    have h2 : (1 : ℚ) / 2 ^ 41 ≤ 7 / 8 * (1 / 2 ^ 40) := by norm_num
    exact h1.trans (h2.trans (by linarith))
  have := le_abs_of_near herre hsmall
  linarith

/-- **One factor of the running product.** For a point within `2^-51` of the unit interval and a
node `m ≠ b`, the rounded factor `(x - x_m) / (x_b - x_m)` is a number of magnitude at most
`3N / |b - m|`. -/
theorem hasValue_factor (hN : 1 ≤ N) (hN' : N ≤ 2 ^ 40) (hb : b ≤ N) (hm : m ≤ N)
    (hmb : m ≠ b) {x : Float} {ξ : ℚ} (hx : HasValue x ξ) (hξ : NearUnit ξ) :
    ∃ q, HasValue ((x - rational m N) / (rational b N - rational m N)) q ∧
      |q| ≤ 3 * N / |(b : ℚ) - m| := by
  obtain ⟨p, hp, hpb⟩ := hasValue_numerator hN (by omega) hm hx hξ
  obtain ⟨e, he, heb⟩ := hasValue_denominator hN hN' hb hm hmb
  have hNq : (0 : ℚ) < N := by exact_mod_cast hN
  have hd1 := one_le_abs_sub hmb
  obtain ⟨δ, hδ⟩ : ∃ δ, δ = |(b : ℚ) - m| / N := ⟨_, rfl⟩
  rw [← hδ] at heb
  have hδ0 : 0 < δ := by rw [hδ]; exact div_pos (by linarith) hNq
  have hδN : 1 ≤ N * δ := by rw [hδ, mul_div_cancel₀ _ hNq.ne']; exact hd1
  have hδ1 : δ ≤ 1 := by rw [hδ]; exact div_le_one_of_le₀ (abs_sub_nat_le hb hm) hNq.le
  have he0 : 0 < |e| := lt_of_lt_of_le (by positivity) heb
  -- the exact quotient is at most `(3/2) / ((3/4) δ) = 2 / δ`
  have hpe : |p / e| ≤ 2 / δ := by
    rw [abs_div, div_le_div_iff₀ he0 hδ0]
    nlinarith [abs_nonneg p]
  have h2N : 2 / δ ≤ 2 * N := by
    rw [div_le_iff₀ hδ0]
    linarith
  have hfit : (2 : ℚ) * N < 2 ^ 1023 := by
    have h41 : (2 : ℚ) * N ≤ 2 ^ 41 := by
      have : (N : ℚ) ≤ 2 ^ 40 := by exact_mod_cast hN'
      linarith [show (2 : ℚ) ^ 41 = 2 * 2 ^ 40 by norm_num]
    exact lt_of_le_of_lt h41 (pow_lt_pow_right₀ one_lt_two (by norm_num))
  obtain ⟨q, hq, herrq⟩ :=
    hasValue_div hp he (abs_pos.1 he0) (lt_of_le_of_lt hpe (h2N.trans_lt hfit))
  refine ⟨q, hq, ?_⟩
  have h2δ : 2 ≤ 2 / δ := by rw [le_div_iff₀ hδ0]; linarith
  have hq' := abs_le_of_near herrq hpe (by linarith)
  have h3 : 3 * N / |(b : ℚ) - m| = 3 / 2 * (2 / δ) := by
    rw [hδ]
    field_simp
  rw [h3]
  have : 2 / δ / 2 ^ 51 ≤ 2 / δ / 2 := div_le_div_of_nonneg_left (by positivity) (by norm_num)
    (by norm_num)
  linarith

/-- **One step of the running product.** Multiplying a number of magnitude at most `B ≥ 1` by the
factor of a node `m ≠ b` gives a number of magnitude at most `B · 4N / |b - m|`, while that bound
is below `2^1000`. -/
theorem hasValue_step (hN : 1 ≤ N) (hN' : N ≤ 2 ^ 40) (hb : b ≤ N) (hm : m ≤ N)
    (hmb : m ≠ b) {x : Float} {ξ : ℚ} (hx : HasValue x ξ) (hξ : NearUnit ξ)
    {v : Float} {a B : ℚ} (hv : HasValue v a) (ha : |a| ≤ B) (hB : 1 ≤ B)
    (hfit : B * factorBound N b m ≤ 2 ^ 1000) :
    ∃ a', HasValue (v * ((x - rational m N) / (rational b N - rational m N))) a' ∧
      |a'| ≤ B * factorBound N b m := by
  obtain ⟨q, hq, hqb⟩ := hasValue_factor hN hN' hb hm hmb hx hξ
  have hd := one_le_abs_sub hmb
  have hd0 : (0 : ℚ) < |(b : ℚ) - m| := by linarith
  have hQ : 3 ≤ 3 * (N : ℚ) / |(b : ℚ) - m| := by
    rw [le_div_iff₀ hd0]
    linarith [abs_sub_nat_le hb hm]
  have hF : factorBound N b m = 4 / 3 * (3 * N / |(b : ℚ) - m|) := by
    rw [factorBound, if_neg hmb]
    ring
  rw [hF] at hfit ⊢
  have hprod : |a * q| ≤ B * (3 * N / |(b : ℚ) - m|) := by
    rw [abs_mul]
    exact mul_le_mul ha hqb (abs_nonneg _) (by linarith)
  have hBQ : 1 ≤ B * (3 * N / |(b : ℚ) - m|) := by nlinarith
  have h1000 : (2 : ℚ) ^ 1000 < 2 ^ 1023 := pow_lt_pow_right₀ one_lt_two (by norm_num)
  have hgrow : B * (3 * N / |(b : ℚ) - m|) ≤ B * (4 / 3 * (3 * N / |(b : ℚ) - m|)) := by
    linarith
  obtain ⟨a', ha', herr⟩ :=
    hasValue_mul hv hq (lt_of_le_of_lt hprod (lt_of_le_of_lt (hgrow.trans hfit) h1000))
  refine ⟨a', ha', ?_⟩
  have := abs_le_of_near herr hprod hBQ
  linarith

end Factors

section RunningProduct

variable {N b : Nat}

/-- One more node, paired with its number. -/
theorem zipIdx_map_range_succ {α : Type} (f : ℕ → α) (K : ℕ) :
    ((List.range (K + 1)).map f).zipIdx = ((List.range K).map f).zipIdx ++ [(f K, K)] := by
  rw [List.range_succ, List.map_append, List.zipIdx_append, List.length_map, List.length_range]
  simp

/-- Basis function `b` of degree `N ≥ 1` is the running product over the nodes `0 … N` in order,
skipping its own. -/
theorem evalAt_ofDegree (hN : 1 ≤ N) (hb : b ≤ N) (x : Float) :
    (Lagrange.ofDegree N).evalAt b x =
      (((List.range (N + 1)).map fun k : ℕ => rational k N).zipIdx).foldl
        (fun v (p : Float × ℕ) => if p.2 == b then v else v * ((x - p.1) / (rational b N - p.1)))
        1 := by
  have h0 : (N == 0) = false := by simp; omega
  have hget : ((List.range (N + 1)).map fun k : ℕ => rational k N).getD b 0 = rational b N := by
    simp [List.getD_eq_getElem?_getD, Nat.lt_succ_of_le hb]
  simp only [Lagrange.evalAt, Lagrange.ofDegree, h0, Bool.false_eq_true, if_false, hget]

/-- **The running product stays within its growths.** Over the first `K` nodes, the running
product of basis function `b` at a point within `2^-51` of the unit interval is a number of
magnitude at most the product of the growths `factorBound`, while the growths of all nodes
together stay below `2^1000`. The induction is on `K`, one node at a time. -/
theorem hasValue_foldl_prefix (hN : 1 ≤ N) (hN' : N ≤ 2 ^ 40) (hb : b ≤ N) {x : Float}
    {ξ : ℚ} (hx : HasValue x ξ) (hξ : NearUnit ξ)
    (hall : ∏ m ∈ range (N + 1), factorBound N b m ≤ 2 ^ 1000) :
    ∀ K ≤ N + 1, ∃ a,
      HasValue ((((List.range K).map fun k : ℕ => rational k N).zipIdx).foldl
        (fun v (p : Float × ℕ) => if p.2 == b then v else v * ((x - p.1) / (rational b N - p.1)))
        1) a ∧ |a| ≤ ∏ m ∈ range K, factorBound N b m := by
  have hone : ∀ m ∈ range (N + 1), 1 ≤ factorBound N b m := fun m hm =>
    one_le_factorBound hb (Nat.lt_succ_iff.1 (mem_range.1 hm))
  intro K
  induction K with
  | zero => exact fun _ => ⟨1, hasValue_one, by simp⟩
  | succ K ih =>
    intro hK
    obtain ⟨a, ha, hab⟩ := ih (by omega)
    rw [zipIdx_map_range_succ, List.foldl_append, List.foldl_cons, List.foldl_nil, prod_range_succ]
    by_cases hKb : K = b
    · -- the running product skips its own node
      subst hKb
      simp only [beq_self_eq_true, if_true, factorBound, mul_one]
      exact ⟨a, ha, hab⟩
    have hne : (K == b) = false := beq_eq_false_iff_ne.2 hKb
    simp only [hne, Bool.false_eq_true, if_false]
    have hsub : range K ⊆ range (N + 1) := range_subset_range.2 (by omega)
    have hB : 1 ≤ ∏ m ∈ range K, factorBound N b m := one_le_prod fun m hm => hone m (hsub hm)
    have hfit : (∏ m ∈ range K, factorBound N b m) * factorBound N b K ≤ 2 ^ 1000 := by
      rw [← prod_range_succ]
      refine le_trans (prod_le_prod_of_subset_of_one_le (range_subset_range.2 hK)
        (fun m hm => zero_le_one.trans (hone m (range_subset_range.2 hK hm)))
        (fun m hm _ => hone m hm)) hall
    exact hasValue_step hN hN' hb (by omega) hKb hx hξ ha hab hB hfit

end RunningProduct

section Growth

variable {N b : Nat}

/-- The growths below basis function `b`'s own node, read backwards at the distances `1 … b`:
`∏_{m < b} 4N / (b - m) = (4N)^b / b!`. -/
theorem prod_factorBound_below : ∏ m ∈ range b, factorBound N b m = (4 * N) ^ b / b ! := by
  rw [← prod_range_reflect]
  have hterm : ∀ j ∈ range b, factorBound N b (b - 1 - j) = 4 * N / ((j : ℚ) + 1) := by
    intro j hj
    have hj' := mem_range.1 hj
    have hc : ((b - 1 - j : ℕ) : ℚ) = b - 1 - j := by
      rw [Nat.cast_sub (by omega), Nat.cast_sub (by omega), Nat.cast_one]
    rw [factorBound, if_neg (by omega), hc, show (b : ℚ) - (b - 1 - j) = j + 1 by ring,
      abs_of_pos (by positivity)]
  rw [prod_congr rfl hterm, prod_div_distrib, prod_const, card_range]
  congr 1
  exact_mod_cast prod_range_add_one_eq_factorial b

/-- **The product of the growths** of basis function `b` over the nodes `0 … K`, for `b ≤ K`, is
`(4N)^K / (b! (K - b)!)`; the induction is on `K` from `b`. -/
theorem prod_factorBound {K : ℕ} (hbK : b ≤ K) :
    ∏ m ∈ range (K + 1), factorBound N b m = (4 * N) ^ K / (b ! * (K - b) !) := by
  induction K, hbK using Nat.le_induction with
  | base =>
    rw [prod_range_succ, prod_factorBound_below, factorBound, if_pos rfl, mul_one, Nat.sub_self,
      Nat.factorial_zero, Nat.cast_one, mul_one]
  | succ K hbK ih =>
    rw [prod_range_succ, ih, factorBound, if_neg (by omega)]
    have hd : |(b : ℚ) - ((K + 1 : ℕ) : ℚ)| = ((K - b : ℕ) : ℚ) + 1 := by
      have hbK' : (b : ℚ) ≤ K := by exact_mod_cast hbK
      rw [abs_sub_comm, Nat.cast_sub hbK, abs_of_nonneg (by push_cast; linarith)]
      push_cast
      ring
    rw [hd, show K + 1 - b = (K - b) + 1 by omega, Nat.factorial_succ]
    have hpos : (0 : ℚ) < ((K - b : ℕ) : ℚ) + 1 := by positivity
    push_cast
    field_simp
    ring

/-- `N^N ≤ 3^N · N!`, since `N^N / N! ≤ e^N` and `e < 3`. -/
theorem pow_self_le_three_pow_mul_factorial (N : ℕ) : N ^ N ≤ 3 ^ N * N ! := by
  have h := Real.pow_div_factorial_le_exp (N : ℝ) (Nat.cast_nonneg N) N
  have he : Real.exp N ≤ 3 ^ N := by
    rw [show (N : ℝ) = N * 1 by ring, Real.exp_nat_mul]
    exact pow_le_pow_left₀ (Real.exp_pos 1).le (by linarith [Real.exp_one_lt_d9]) N
  have hf : (0 : ℝ) < N ! := by exact_mod_cast Nat.factorial_pos N
  rw [div_le_iff₀ hf] at h
  exact_mod_cast le_trans h (mul_le_mul_of_nonneg_right he hf.le)

/-- **A basis function grows by at most `24^N`**: `(4N)^N / (b! (N - b)!)` is
`4^N · (N^N / N!) · C(N, b)`, with `N^N / N! ≤ 3^N` and `C(N, b) ≤ 2^N`. -/
theorem prod_factorBound_le (hb : b ≤ N) :
    ∏ m ∈ range (N + 1), factorBound N b m ≤ 24 ^ N := by
  rw [prod_factorBound hb]
  have hpos : (0 : ℚ) < b ! * (N - b) ! := by positivity
  rw [div_le_iff₀ hpos]
  have hC := Nat.choose_le_two_pow N b
  have hCpos := Nat.choose_pos hb
  have hfact := Nat.choose_mul_factorial_mul_factorial hb
  have hself := pow_self_le_three_pow_mul_factorial N
  -- multiplied by `C(N, b)`, the bound is one of whole numbers
  have key : (4 * N) ^ N * N.choose b ≤ 24 ^ N * (b ! * (N - b) !) * N.choose b :=
    calc (4 * N) ^ N * N.choose b = 4 ^ N * N ^ N * N.choose b := by rw [mul_pow]
      _ ≤ 4 ^ N * (3 ^ N * N !) * 2 ^ N := by gcongr
      _ = 24 ^ N * N ! := by
          rw [show (24 : ℕ) = 4 * 3 * 2 by norm_num, mul_pow, mul_pow]
          ring
      _ = 24 ^ N * (b ! * (N - b) !) * N.choose b := by rw [← hfact]; ring
  exact_mod_cast Nat.le_of_mul_le_mul_right key hCpos

end Growth

/-- **Every Lagrange basis function of degree `1 ≤ N ≤ 200` is finite** at every double within
`2^-51` of the unit interval: its growths multiply to at most `24^N ≤ 2^1000`. -/
theorem isFinite_evalAt {N b : ℕ} (hN : 1 ≤ N) (hN' : N ≤ 200) (hb : b ≤ N) {x : Float}
    {ξ : ℚ} (hx : HasValue x ξ) (hξ : NearUnit ξ) :
    ((Lagrange.ofDegree N).evalAt b x).isFinite = true := by
  have hall : ∏ m ∈ range (N + 1), factorBound N b m ≤ 2 ^ 1000 :=
    calc ∏ m ∈ range (N + 1), factorBound N b m ≤ 24 ^ N := prod_factorBound_le hb
      _ ≤ 32 ^ N := pow_le_pow_left₀ (by norm_num) (by norm_num) N
      _ = 2 ^ (5 * N) := by rw [pow_mul]; norm_num
      _ ≤ 2 ^ 1000 := pow_le_pow_right₀ one_le_two (by omega)
  obtain ⟨a, ha, -⟩ := hasValue_foldl_prefix hN (by omega) hb hx hξ hall (N + 1) le_rfl
  rw [evalAt_ofDegree hN hb]
  exact isFinite_of_hasValue ha

/-- **The basis is finite at the refined nodes** `t / (2N)` of every degree `1 ≤ N ≤ 200`. -/
theorem isFinite_evalAt_rational {N b t : ℕ} (hN : 1 ≤ N) (hN' : N ≤ 200) (hb : b ≤ N)
    (ht : t ≤ 2 * N) : ((Lagrange.ofDegree N).evalAt b (rational t (2 * N))).isFinite = true := by
  obtain ⟨ξ, hx, herr⟩ := hasValue_rational ht (by omega) (by omega)
  have hcast : rational t (2 * N) = rational t ((2 * N : ℕ) : ℤ) := by push_cast; rfl
  rw [hcast]
  exact isFinite_evalAt hN hN' hb hx (near_unit_of_rational ht (by omega) herr)

end FiniteElements.Basis
