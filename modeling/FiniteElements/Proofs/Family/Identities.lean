import FiniteElements.Proofs.Family.NodeGrid

/-!
# Shared dofs of continuous elements of two degrees

Where continuous elements of degrees `N` and `M` meet on a line or a face, the dofs that sit at
the same point can be unified. The `a`-th interior dof of a line of the element of degree `N` sits
at `(a + 1) / N` along it, so it meets the `b`-th one of degree `M` exactly when
`(a + 1) · M = (b + 1) · N` (`mem_lineIdentities`). With `g = gcd N M` these common points are
`t / g` for `t = 1 … g - 1`, so the pairs are `(t · N/g - 1, t · M/g - 1)` in the order of `t`
(`lineIdentities_eq_map_range`): `g - 1` pairs, increasing in both coordinates, and swapping the
degrees swaps every pair.

The interior dofs of a face of the cube are numbered lexicographically in the face's `(u, v)`
frame, so face dof `a₂ · (N - 1) + a₁` sits at `((a₁ + 1) / N, (a₂ + 1) / N)`. Pairing line
identities axis by axis therefore pairs exactly the face dofs at one point of the face
(`mem_quadIdentities`), whatever the face.

## Main definitions

* `FiniteElements.Family.LtBoth`

## Main results

* `FiniteElements.Family.mem_lineIdentities`, `pairwise_lineIdentities`,
  `lineIdentities_eq_map_range`, `lineIdentities_swap`
* `FiniteElements.Family.mem_quadIdentities`, `length_quadIdentities`, `quadIdentities_swap`
* `FiniteElements.Family.hpIdentities_continuous`
-/

namespace FiniteElements.Family

set_option autoImplicit false

open FiniteElements.Cell FiniteElements.Element

/-- `p` comes before `q` in both coordinates. -/
def LtBoth (p q : Nat × Nat) : Prop := p.1 < q.1 ∧ p.2 < q.2

instance : Std.Irrefl LtBoth := ⟨fun _ h => Nat.lt_irrefl _ h.1⟩

instance : Std.Antisymm LtBoth := ⟨fun _ _ h h' => absurd (h.1.trans h'.1) (Nat.lt_irrefl _)⟩

section Lines

variable {N M : Nat}

/-- **Line dofs at one point.** Interior dof `a` of degree `N` and `b` of degree `M` are paired
exactly when they sit at the same point `(a + 1) / N = (b + 1) / M` of the line. -/
theorem mem_lineIdentities {a b : Nat} :
    (a, b) ∈ lineIdentities N M ↔ a < N - 1 ∧ b < M - 1 ∧ (a + 1) * M = (b + 1) * N := by
  simp only [lineIdentities, List.mem_flatMap, List.mem_range, List.mem_map, List.mem_filter,
    beq_iff_eq, Prod.mk.injEq]
  constructor
  · rintro ⟨a', ha, b', ⟨hb, heq⟩, rfl, rfl⟩
    exact ⟨ha, hb, heq⟩
  · rintro ⟨ha, hb, heq⟩
    exact ⟨a, ha, b, ⟨hb, heq⟩, rfl, rfl⟩

/-- The pairs come in increasing order of both coordinates: each line dof meets at most one dof
of the other degree, and a farther point on one side is a farther point on the other. -/
theorem pairwise_lineIdentities (N M : Nat) : (lineIdentities N M).Pairwise LtBoth := by
  unfold lineIdentities
  rw [List.pairwise_flatMap]
  refine ⟨fun a ha => ?_, List.pairwise_lt_range.imp fun {a₁ a₂} h12 x hx y hy => ?_⟩
  · -- within one dof `a`, two partners `b < b'` would sit at the same point
    rw [List.pairwise_map]
    refine (List.pairwise_lt_range.filter _).imp_of_mem fun {b b'} hb hb' hlt => ?_
    simp only [List.mem_filter, beq_iff_eq] at hb hb'
    have hN : 0 < N := by simp at ha; omega
    have : b + 1 = b' + 1 := Nat.eq_of_mul_eq_mul_right hN (hb.2.symm.trans hb'.2)
    omega
  · simp only [List.mem_map, List.mem_filter, List.mem_range, beq_iff_eq] at hx hy
    obtain ⟨b₁, ⟨hb₁, h₁⟩, rfl⟩ := hx
    obtain ⟨b₂, ⟨-, h₂⟩, rfl⟩ := hy
    have hlt : (b₁ + 1) * N < (b₂ + 1) * N := by
      rw [← h₁, ← h₂]
      exact Nat.mul_lt_mul_of_pos_right (by omega) (by omega)
    have := Nat.lt_of_mul_lt_mul_right hlt
    exact ⟨h12, by omega⟩

/-- The common points of the two grids are the multiples of `1 / g`, `g = gcd N M`: in lowest
terms `N = n' g`, `M = m' g`, the dof `a` meets one of degree `M` exactly when `n'` divides
`a + 1`. -/
theorem mem_lineIdentities_iff_multiple {g n' m' : Nat} (hg : 0 < g) (hn' : 0 < n') (hm' : 0 < m')
    (hcop : Nat.Coprime n' m') {a b : Nat} :
    (a < n' * g - 1 ∧ b < m' * g - 1 ∧ (a + 1) * (m' * g) = (b + 1) * (n' * g)) ↔
      ∃ t, t < g - 1 ∧ (t + 1) * n' - 1 = a ∧ (t + 1) * m' - 1 = b := by
  constructor
  · rintro ⟨ha, -, heq⟩
    have heq' : (a + 1) * m' = (b + 1) * n' := by
      apply Nat.eq_of_mul_eq_mul_right hg
      simpa only [Nat.mul_assoc] using heq
    -- `n'` divides `(a + 1) m'` and is prime to `m'`
    obtain ⟨s, hs⟩ : n' ∣ a + 1 :=
      hcop.dvd_of_dvd_mul_right ⟨b + 1, by rw [heq', Nat.mul_comm]⟩
    have hbs : b + 1 = s * m' := by
      apply Nat.eq_of_mul_eq_mul_right hn'
      rw [← heq', hs]
      ring
    have hsg : s < g := by
      have ha' : a + 1 < n' * g := by omega
      rw [hs, Nat.mul_comm n' s, Nat.mul_comm n' g] at ha'
      exact Nat.lt_of_mul_lt_mul_right ha'
    have hs0 : 0 < s := Nat.pos_of_ne_zero fun h => by simp [h] at hs
    refine ⟨s - 1, by omega, ?_, ?_⟩
    · rw [Nat.sub_add_cancel hs0, Nat.mul_comm, ← hs]
      rfl
    · rw [Nat.sub_add_cancel hs0, ← hbs]
      rfl
  · rintro ⟨t, ht, rfl, rfl⟩
    have ha : 0 < (t + 1) * n' := Nat.mul_pos (show 0 < t + 1 by omega) hn'
    have hb : 0 < (t + 1) * m' := Nat.mul_pos (show 0 < t + 1 by omega) hm'
    have hna : (t + 1) * n' < n' * g := by
      rw [Nat.mul_comm n']
      exact Nat.mul_lt_mul_of_pos_right (by omega) hn'
    have hmb : (t + 1) * m' < m' * g := by
      rw [Nat.mul_comm m']
      exact Nat.mul_lt_mul_of_pos_right (by omega) hm'
    rw [Nat.sub_add_cancel ha, Nat.sub_add_cancel hb]
    exact ⟨by omega, by omega, by ring⟩

/-- A pair of degrees in lowest terms: `N = n' g` and `M = m' g` with `g = gcd N M`. -/
theorem exists_lowestTerms (hN : 0 < N) (hM : 0 < M) :
    ∃ g n' m', 0 < g ∧ 0 < n' ∧ 0 < m' ∧ Nat.Coprime n' m' ∧ N = n' * g ∧ M = m' * g ∧
      Nat.gcd N M = g := by
  obtain ⟨g, n', m', hg, hcop, rfl, rfl⟩ := Nat.exists_coprime' (Nat.gcd_pos_of_pos_left M hN)
  refine ⟨g, n', m', hg, Nat.pos_of_ne_zero ?_, Nat.pos_of_ne_zero ?_, hcop, rfl, rfl, ?_⟩
  · rintro rfl
    simp at hN
  · rintro rfl
    simp at hM
  · rw [Nat.gcd_mul_right, hcop.gcd_eq_one, Nat.one_mul]

/-- **The line identities in closed form**: with `g = gcd N M`, the `t`-th pair is
`((t + 1) · N/g - 1, (t + 1) · M/g - 1)`, for `t < g - 1`. -/
theorem lineIdentities_eq_map_range (hN : 0 < N) (hM : 0 < M) :
    lineIdentities N M = (List.range (Nat.gcd N M - 1)).map fun t =>
      ((t + 1) * (N / Nat.gcd N M) - 1, (t + 1) * (M / Nat.gcd N M) - 1) := by
  obtain ⟨g, n', m', hg, hn', hm', hcop, rfl, rfl, hgcd⟩ := exists_lowestTerms hN hM
  rw [hgcd, Nat.mul_div_cancel _ hg, Nat.mul_div_cancel _ hg]
  -- both lists are strictly increasing and have the same members
  refine (pairwise_lineIdentities _ _).eq_of_mem_iff ?_ fun ⟨a, b⟩ => ?_
  · rw [List.pairwise_map]
    refine List.pairwise_lt_range.imp fun {t t'} h => ?_
    have hn := Nat.mul_lt_mul_of_pos_right (show t + 1 < t' + 1 by omega) hn'
    have hm := Nat.mul_lt_mul_of_pos_right (show t + 1 < t' + 1 by omega) hm'
    have := Nat.mul_pos (show 0 < t + 1 by omega) hn'
    have := Nat.mul_pos (show 0 < t + 1 by omega) hm'
    exact ⟨by omega, by omega⟩
  · rw [mem_lineIdentities, mem_lineIdentities_iff_multiple hg hn' hm' hcop]
    simp only [List.mem_map, List.mem_range, Prod.mk.injEq]

theorem length_lineIdentities (hN : 0 < N) (hM : 0 < M) :
    (lineIdentities N M).length = Nat.gcd N M - 1 := by
  rw [lineIdentities_eq_map_range hN hM, List.length_map, List.length_range]

/-- Swapping the degrees swaps every pair. -/
theorem lineIdentities_swap (hN : 0 < N) (hM : 0 < M) :
    lineIdentities M N = (lineIdentities N M).map Prod.swap := by
  rw [lineIdentities_eq_map_range hM hN, lineIdentities_eq_map_range hN hM, List.map_map,
    Nat.gcd_comm]
  rfl

end Lines

section Quads

variable {N M : Nat}

/-- Interior dof `j · (N - 1) + i` of face `f` sits at the face's pattern with frame
coordinates `(i + 1, j + 1)`. -/
theorem getD_continuousNodes_cubeFace {f i j : Nat} (hf : f < 6) (hi : i < N - 1)
    (hj : j < N - 1) :
    (continuousNodes .cube N).getD (8 + 12 * (N - 1) + f * (N - 1) ^ 2 + (j * (N - 1) + i)) [] =
      (objectShape .cube 2 f).map (Coord.eval N [i + 1, j + 1]) := by
  rw [List.getD_eq_getElem?_getD, getElem?_continuousNodes_cubeFace hf
    (by rw [Nat.pow_two]; exact mul_add_lt_mul hj hi), Option.getD_some]
  simp only [innerCoords, getD_interiorPairs_mul_add hi hj]

/-- A face of the cube has both frame coordinates among its node coordinates, and otherwise
sides only; checked on the six faces. -/
theorem objectShape_cubeFace_coords : ∀ f : Nat, f < 6 →
    Coord.inner 0 ∈ objectShape .cube 2 f ∧ Coord.inner 1 ∈ objectShape .cube 2 f ∧
      ∀ s ∈ objectShape .cube 2 f, s = .inner 0 ∨ s = .inner 1 ∨ ∃ b ∈ [0, 1], s = .side b := by
  decide

/-- Two face nodes of degrees `N` and `M` are at one point of the face (in units `1/N` and
`1/M`) exactly when their frame coordinates are. -/
theorem faceNodes_samePoint_iff {f : Nat} (hf : f < 6) {u v u' v' : Nat} :
    ((objectShape .cube 2 f).map (Coord.eval N [u, v])).map (· * M) =
        ((objectShape .cube 2 f).map (Coord.eval M [u', v'])).map (· * N) ↔
      u * M = u' * N ∧ v * M = v' * N := by
  obtain ⟨h0, h1, hsides⟩ := objectShape_cubeFace_coords f hf
  simp only [List.map_map]
  rw [List.map_inj_left]
  constructor
  · intro h
    exact ⟨h _ h0, h _ h1⟩
  · rintro ⟨hu, hv⟩ s hs
    rcases hsides s hs with rfl | rfl | ⟨b, -, rfl⟩
    · exact hu
    · exact hv
    · simp only [Function.comp_apply, Coord.eval]
      ring

/-- **Face dofs at one point.** On every face of the cube, the pairs of face interior dofs are
exactly the interior dofs of degree `N` and `M` at one point of the face. -/
theorem mem_quadIdentities {f : Nat} (hf : f < 6) {x y : Nat} :
    (x, y) ∈ quadIdentities N M ↔ x < (N - 1) ^ 2 ∧ y < (M - 1) ^ 2 ∧
      ((continuousNodes .cube N).getD (8 + 12 * (N - 1) + f * (N - 1) ^ 2 + x) []).map (· * M) =
        ((continuousNodes .cube M).getD (8 + 12 * (M - 1) + f * (M - 1) ^ 2 + y) []).map
          (· * N) := by
  constructor
  · intro h
    simp only [quadIdentities, List.mem_flatMap, List.mem_map, Prod.mk.injEq] at h
    obtain ⟨⟨a₂, b₂⟩, h₂, ⟨a₁, b₁⟩, h₁, rfl, rfl⟩ := h
    obtain ⟨ha₁, hb₁, he₁⟩ := mem_lineIdentities.1 h₁
    obtain ⟨ha₂, hb₂, he₂⟩ := mem_lineIdentities.1 h₂
    refine ⟨by rw [Nat.pow_two]; exact mul_add_lt_mul ha₂ ha₁,
      by rw [Nat.pow_two]; exact mul_add_lt_mul hb₂ hb₁, ?_⟩
    rw [getD_continuousNodes_cubeFace hf ha₁ ha₂, getD_continuousNodes_cubeFace hf hb₁ hb₂,
      faceNodes_samePoint_iff hf]
    exact ⟨he₁, he₂⟩
  · rintro ⟨hx, hy, hsame⟩
    -- read each dof as its frame coordinates, `u` fastest
    have hN : 0 < N - 1 := Nat.pos_of_ne_zero fun h => by simp [h] at hx
    have hM : 0 < M - 1 := Nat.pos_of_ne_zero fun h => by simp [h] at hy
    have hx' : x / (N - 1) < N - 1 := Nat.div_lt_of_lt_mul (by rwa [← Nat.pow_two])
    have hy' : y / (M - 1) < M - 1 := Nat.div_lt_of_lt_mul (by rwa [← Nat.pow_two])
    have hxe := (Nat.div_add_mod x (N - 1)).symm
    have hye := (Nat.div_add_mod y (M - 1)).symm
    rw [Nat.mul_comm] at hxe hye
    rw [hxe, hye, getD_continuousNodes_cubeFace hf (Nat.mod_lt x hN) hx',
      getD_continuousNodes_cubeFace hf (Nat.mod_lt y hM) hy', faceNodes_samePoint_iff hf] at hsame
    rw [hxe, hye]
    simp only [quadIdentities, List.mem_flatMap, List.mem_map, Prod.mk.injEq]
    exact ⟨(x / (N - 1), y / (M - 1)), mem_lineIdentities.2 ⟨hx', hy', hsame.2⟩,
      (x % (N - 1), y % (M - 1)), mem_lineIdentities.2 ⟨Nat.mod_lt x hN, Nat.mod_lt y hM, hsame.1⟩,
      rfl, rfl⟩

theorem length_quadIdentities (hN : 0 < N) (hM : 0 < M) :
    (quadIdentities N M).length = (Nat.gcd N M - 1) ^ 2 := by
  simp [quadIdentities, List.length_flatMap, length_lineIdentities hN hM, Nat.pow_two]

/-- Swapping the degrees swaps every pair of face dofs. -/
theorem quadIdentities_swap (hN : 0 < N) (hM : 0 < M) :
    quadIdentities M N = (quadIdentities N M).map Prod.swap := by
  simp only [quadIdentities, lineIdentities_swap hN hM, List.flatMap_map, List.map_flatMap,
    List.map_map]
  rfl

/-- **Hp identities of two continuous elements.** For degrees `N, M ≥ 1` the line identities are
the pairs of line interior dofs at one point of a shared line, listed increasing in both
coordinates, `gcd N M - 1` of them, and swapped when the degrees are; the face identities are
the ordered pairs of line identities read as face interior dofs, exactly the pairs of face
interior dofs at one point of every face of the cube, `(gcd N M - 1) ^ 2` of them, and swapped
when the degrees are. -/
theorem hpIdentities_continuous {N M : Nat} (hN : 1 ≤ N) (hM : 1 ≤ M) :
    (∀ a b, (a, b) ∈ lineIdentities N M ↔
      a < N - 1 ∧ b < M - 1 ∧ (a + 1) * M = (b + 1) * N) ∧
    (lineIdentities N M).Pairwise LtBoth ∧
    (lineIdentities N M).length = Nat.gcd N M - 1 ∧
    lineIdentities M N = (lineIdentities N M).map Prod.swap ∧
    quadIdentities N M = (lineIdentities N M).flatMap (fun pj =>
      (lineIdentities N M).map fun pi => (pj.1 * (N - 1) + pi.1, pj.2 * (M - 1) + pi.2)) ∧
    (∀ f : Nat, f < 6 → ∀ x y, (x, y) ∈ quadIdentities N M ↔
      x < (N - 1) ^ 2 ∧ y < (M - 1) ^ 2 ∧
        ((continuousNodes .cube N).getD (8 + 12 * (N - 1) + f * (N - 1) ^ 2 + x) []).map
            (· * M) =
          ((continuousNodes .cube M).getD (8 + 12 * (M - 1) + f * (M - 1) ^ 2 + y) []).map
            (· * N)) ∧
    (quadIdentities N M).length = (Nat.gcd N M - 1) ^ 2 ∧
    quadIdentities M N = (quadIdentities N M).map Prod.swap :=
  ⟨fun _ _ => mem_lineIdentities, pairwise_lineIdentities N M, length_lineIdentities hN hM,
    lineIdentities_swap hN hM, rfl, fun _ hf _ _ => mem_quadIdentities hf,
    length_quadIdentities hN hM, quadIdentities_swap hN hM⟩

/-- Degrees two and four share one line dof and one face dof. -/
theorem hpIdentities_quadraticQuartic : 1 ≤ 2 ∧ 1 ≤ 4 ∧
    ((∀ a b, (a, b) ∈ lineIdentities 2 4 ↔
      a < 2 - 1 ∧ b < 4 - 1 ∧ (a + 1) * 4 = (b + 1) * 2) ∧
    (lineIdentities 2 4).Pairwise LtBoth ∧
    (lineIdentities 2 4).length = Nat.gcd 2 4 - 1 ∧
    lineIdentities 4 2 = (lineIdentities 2 4).map Prod.swap ∧
    quadIdentities 2 4 = (lineIdentities 2 4).flatMap (fun pj =>
      (lineIdentities 2 4).map fun pi => (pj.1 * (2 - 1) + pi.1, pj.2 * (4 - 1) + pi.2)) ∧
    (∀ f : Nat, f < 6 → ∀ x y, (x, y) ∈ quadIdentities 2 4 ↔
      x < (2 - 1) ^ 2 ∧ y < (4 - 1) ^ 2 ∧
        ((continuousNodes .cube 2).getD (8 + 12 * (2 - 1) + f * (2 - 1) ^ 2 + x) []).map
            (· * 4) =
          ((continuousNodes .cube 4).getD (8 + 12 * (4 - 1) + f * (4 - 1) ^ 2 + y) []).map
            (· * 2)) ∧
    (quadIdentities 2 4).length = (Nat.gcd 2 4 - 1) ^ 2 ∧
    quadIdentities 4 2 = (quadIdentities 2 4).map Prod.swap) :=
  ⟨by decide, by decide, hpIdentities_continuous (by decide) (by decide)⟩

end Quads

end FiniteElements.Family
