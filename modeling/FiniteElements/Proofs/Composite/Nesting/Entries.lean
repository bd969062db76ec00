import FiniteElements.Proofs.Composite.Nesting.Layouts

/-!
# Dof by dof, a nested composite reads what its flattening reads

A layout that nests (`Nests`) sends each dof of the nested composite to a dof of its flattening
(`nestDof`): a dof of copy `t` of the inner composite to the inner block dof its index names, in
the `t`-th run of inner blocks, and a dof of a later block to the same dof of that block, moved
past the inner blocks (`nestDof_copy`, `nestDof_rest`). What the two composites compute dof by dof
then agrees once it agrees on each such pair:

* a map over the layout (`Nests.mapM_eq`, `Nests.map_eq_map`): additivity flags, masks, component
  indices and face cells;
* an entry of a block-diagonal matrix (`blockEntry_nestDof`): the transfer matrices and the
  interface constraints, where a copy of the inner composite contributes the inner composite's own
  block-diagonal matrix;
* a mask moved twice, into the inner composite's components and then into the copy's, is the
  block's mask moved once (`shiftMask_shiftMask`);
* the values the blocks hand out, one per block (`mapM_replicate_append`,
  `mapM_flatten_replicate_append`): `m` copies of the inner composite's value against `m` runs of
  its blocks' values, then the same values of the later blocks.

## Main definitions

* `FiniteElements.Element.blockEntry`

## Main results

* `FiniteElements.Element.Nests.mapM_eq`
* `FiniteElements.Element.blockEntry_nestDof`
-/

namespace FiniteElements.Element

set_option autoImplicit false

open FiniteElements.Dense

/-! ### Where a dof is sent -/

section NestDof

variable {L : List BlockDof} {m nI : Nat}

@[simp] theorem nestDof_copy {t : Nat} (ht : t < m) (i : Nat) :
    nestDof L m nI ⟨t, i⟩ = ⟨t * nI + (L.getD i default).block, (L.getD i default).index⟩ := by
  simp [nestDof, ht]

@[simp] theorem nestDof_rest (j i : Nat) : nestDof L m nI ⟨m + j, i⟩ = ⟨m * nI + j, i⟩ := by
  simp [nestDof, Nat.add_comm]

/-- Runs of `n` told apart: a place in run `t` is not a place in another run. -/
theorem eq_of_mul_add_eq {n t t' β β' : Nat} (hβ : β < n) (hβ' : β' < n)
    (h : t * n + β = t' * n + β') : t = t' ∧ β = β' := by
  have hdiv : t = t' := by
    have h₁ : (t * n + β) / n = t := by
      rw [Nat.add_comm, Nat.add_mul_div_right _ _ (by omega), Nat.div_eq_of_lt hβ, Nat.zero_add]
    have h₂ : (t' * n + β') / n = t' := by
      rw [Nat.add_comm, Nat.add_mul_div_right _ _ (by omega), Nat.div_eq_of_lt hβ', Nat.zero_add]
    rw [← h₁, h, h₂]
  subst hdiv
  exact ⟨rfl, by omega⟩

end NestDof

theorem getD_map_of_lt {α β : Type} [Inhabited α] {L : List α} {F : α → β} {i : Nat}
    (hi : i < L.length) (d : β) : (L.map F).getD i d = F (L.getD i default) := by
  rw [List.getD_eq_getElem _ _ (by simpa using hi), List.getElem_map,
    List.getD_eq_getElem _ _ hi]

theorem mapM_congr {ε α β : Type} {xs : List α} {f g : α → Except ε β}
    (h : ∀ x ∈ xs, f x = g x) : xs.mapM f = xs.mapM g := by
  induction xs with
  | nil => rfl
  | cons x xs ih =>
    rw [List.mapM_cons, List.mapM_cons, h x List.mem_cons_self,
      ih fun y hy => h y (List.mem_cons_of_mem _ hy)]

namespace Nests

variable {LO LI LF : List BlockDof} {m nI K : Nat} (h : Nests LO LI LF m nI K)
include h

/-- **Every dof of a nested layout, with the dof it is sent to**, satisfies a relation that holds
for a copy's dof at each index of the inner layout with the inner block dof there, and for a
later block's dof with the same dof past the inner blocks. -/
theorem forall_nestDof {R : BlockDof → BlockDof → Prop}
    (hcopy : ∀ t < m, ∀ i < LI.length,
      R ⟨t, i⟩ ⟨t * nI + (LI.getD i default).block, (LI.getD i default).index⟩)
    (hrest : ∀ j < K, ∀ i, R ⟨m + j, i⟩ ⟨m * nI + j, i⟩) :
    ∀ bd ∈ LO, R bd (nestDof LI m nI bd) := by
  intro bd hbd
  obtain ⟨hb, hi⟩ := h.mem bd hbd
  obtain ⟨t, i⟩ := bd
  dsimp only at hb hi
  by_cases ht : t < m
  · rw [nestDof_copy ht]
    exact hcopy t ht i (hi ht)
  · obtain ⟨j, rfl⟩ := Nat.exists_eq_add_of_le (Nat.not_lt.1 ht)
    rw [nestDof_rest]
    exact hrest j (by omega) i

/-- **A map over a nested layout is the map over the flattened one** when a copy of the inner
composite reads, at each index of the inner layout, what the flattening reads at the inner block
dof there, and the later blocks read the same. -/
theorem mapM_eq {ε α : Type} {fO fF : BlockDof → Except ε α}
    (hcopy : ∀ t < m, ∀ i < LI.length,
      fO ⟨t, i⟩ = fF ⟨t * nI + (LI.getD i default).block, (LI.getD i default).index⟩)
    (hrest : ∀ j < K, ∀ i, fO ⟨m + j, i⟩ = fF ⟨m * nI + j, i⟩) :
    LO.mapM fO = LF.mapM fF := by
  rw [← h.map_eq, List.mapM_map]
  exact mapM_congr (h.forall_nestDof (R := fun bd bd' => fO bd = fF bd') hcopy hrest)

theorem map_eq_map {α : Type} {fO fF : BlockDof → α}
    (hcopy : ∀ t < m, ∀ i < LI.length,
      fO ⟨t, i⟩ = fF ⟨t * nI + (LI.getD i default).block, (LI.getD i default).index⟩)
    (hrest : ∀ j < K, ∀ i, fO ⟨m + j, i⟩ = fF ⟨m * nI + j, i⟩) :
    LO.map fO = LF.map fF := by
  rw [← h.map_eq, List.map_map]
  exact List.map_congr_left (h.forall_nestDof (R := fun bd bd' => fO bd = fF bd') hcopy hrest)

end Nests

/-! ### Block-diagonal entries -/

/-- The entry of a block-diagonal matrix at two block dofs: the entry of their block's matrix when
they lie in one block, and zero otherwise. -/
def blockEntry (base : List Matrix) (bi bj : BlockDof) : Float :=
  if bi.block == bj.block then (base.getD bi.block .empty).get bi.index bj.index else 0

/-- The entries of the block-diagonal matrix of `base` with `r` rows and `c` columns, whose rows and
columns list the block dofs `rows` and `cols`, row by row. -/
def blockEntries (rows cols : List BlockDof) (base : List Matrix) (r c : Nat) : Array Float :=
  (Array.range (r * c)).map fun k =>
    blockEntry base (rows.toArray.getD (k / c) default) (cols.toArray.getD (k % c) default)

theorem blockDiagonal_eq_blockEntries (C : Matrix) (rows cols : List BlockDof)
    (base : List Matrix) :
    blockDiagonal C rows cols base =
      { C with entries := blockEntries rows cols base C.rows C.cols } :=
  rfl

theorem getD_toArray {α : Type} (L : List α) (i : Nat) (d : α) :
    L.toArray.getD i d = L.getD i d := by
  rw [Array.getD_eq_getD_getElem?, List.getElem?_toArray, List.getD_eq_getElem?_getD]

/-- **Block-diagonal entries read through maps of the block dofs**: when the entry at any row dof
and column dof is the entry at their images, every entry of the matrix is. -/
theorem blockEntries_map {rows cols : List BlockDof} {φ ψ : BlockDof → BlockDof}
    {bA bB : List Matrix} {r c : Nat} (hr : rows.length = r) (hc : cols.length = c)
    (h : ∀ bi ∈ rows, ∀ bj ∈ cols, blockEntry bA bi bj = blockEntry bB (φ bi) (ψ bj)) :
    blockEntries rows cols bA r c = blockEntries (rows.map φ) (cols.map ψ) bB r c := by
  unfold blockEntries
  refine Array.map_congr_left fun k hk => ?_
  have hk : k < r * c := Array.mem_range.1 hk
  have hc0 : 0 < c := Nat.pos_of_ne_zero fun h0 => by simp [h0] at hk
  have hi : k / c < rows.length := by
    rw [hr]
    exact Nat.div_lt_of_lt_mul (by rwa [Nat.mul_comm] at hk)
  have hj : k % c < cols.length := by
    rw [hc]
    exact Nat.mod_lt _ hc0
  simp only [getD_toArray]
  rw [getD_map_of_lt hi, getD_map_of_lt hj]
  exact h _ (getD_mem_of_lt default hi) _ (getD_mem_of_lt default hj)

section Entries

variable {LR LIR LFR LC LIC LFC : List BlockDof} {m nI K : Nat}
  (hR : Nests LR LIR LFR m nI K) (hC : Nests LC LIC LFC m nI K)
  (hLIR : ∀ bd ∈ LIR, bd.block < nI) (hLIC : ∀ bd ∈ LIC, bd.block < nI)
  {baseO baseI baseF : List Matrix} {MI : Matrix}
  (hO : ∀ t < m, baseO.getD t .empty = MI)
  (hMI : ∀ i < LIR.length, ∀ j < LIC.length,
    MI.get i j = blockEntry baseI (LIR.getD i default) (LIC.getD j default))
  (hF : ∀ t < m, ∀ β < nI, baseF.getD (t * nI + β) .empty = baseI.getD β .empty)
  (hK : ∀ j < K, baseO.getD (m + j) .empty = baseF.getD (m * nI + j) .empty)
include hR hC hLIR hLIC hO hMI hF hK

/-- **A block-diagonal entry of a nested composite is the flattening's.** A copy of the inner
composite contributes the inner composite's block-diagonal matrix, whose entry at two inner dofs is
their inner block's when they share one; in the flattening those dofs share a block exactly when
they share the copy and the inner block. -/
theorem blockEntry_nestDof {bi bj : BlockDof} (hbi : bi ∈ LR) (hbj : bj ∈ LC) :
    blockEntry baseO bi bj = blockEntry baseF (nestDof LIR m nI bi) (nestDof LIC m nI bj) := by
  obtain ⟨hbR, hiR⟩ := hR.mem bi hbi
  obtain ⟨hbC, hiC⟩ := hC.mem bj hbj
  obtain ⟨t, i⟩ := bi
  obtain ⟨t', j⟩ := bj
  dsimp only at hbR hiR hbC hiC
  by_cases ht : t < m <;> by_cases ht' : t' < m
  · -- both in copies of the inner composite
    have hβ := hLIR _ (getD_mem_of_lt default (hiR ht))
    have hβ' := hLIC _ (getD_mem_of_lt default (hiC ht'))
    rw [nestDof_copy ht, nestDof_copy ht']
    by_cases htt : t = t'
    · subst htt
      simp only [blockEntry, beq_self_eq_true, if_true, hO t ht, hMI i (hiR ht) j (hiC ht'),
        Nat.add_left_cancel_iff, beq_iff_eq]
      split_ifs with hββ
      · rw [hF t ht _ hβ]
      · rfl
    · have hne : t * nI + (LIR.getD i default).block ≠ t' * nI + (LIC.getD j default).block :=
        fun heq => htt (eq_of_mul_add_eq hβ hβ' heq).1
      simp only [blockEntry, beq_iff_eq, if_neg htt, if_neg hne]
  · -- a copy and a later block
    have hβ := hLIR _ (getD_mem_of_lt default (hiR ht))
    obtain ⟨b, rfl⟩ := Nat.exists_eq_add_of_le (Nat.not_lt.1 ht')
    have hlt := mul_add_lt_mul ht hβ
    rw [nestDof_copy ht, nestDof_rest]
    simp only [blockEntry, beq_iff_eq, if_neg (show t ≠ m + b by omega),
      if_neg (show t * nI + (LIR.getD i default).block ≠ m * nI + b by omega)]
  · -- a later block and a copy
    have hβ' := hLIC _ (getD_mem_of_lt default (hiC ht'))
    obtain ⟨a, rfl⟩ := Nat.exists_eq_add_of_le (Nat.not_lt.1 ht)
    have hlt := mul_add_lt_mul ht' hβ'
    rw [nestDof_rest, nestDof_copy ht']
    simp only [blockEntry, beq_iff_eq, if_neg (show m + a ≠ t' by omega),
      if_neg (show m * nI + a ≠ t' * nI + (LIC.getD j default).block by omega)]
  · -- both in later blocks, the same in the two composites
    obtain ⟨a, rfl⟩ := Nat.exists_eq_add_of_le (Nat.not_lt.1 ht)
    obtain ⟨b, rfl⟩ := Nat.exists_eq_add_of_le (Nat.not_lt.1 ht')
    rw [nestDof_rest, nestDof_rest]
    simp only [blockEntry, Nat.add_left_cancel_iff, beq_iff_eq]
    split_ifs
    · rw [hK a (by omega)]
    · rfl

end Entries

/-! ### Masks moved twice -/

/-- **A mask moved twice is moved once**: into the inner composite's `N₁` components at the
block's offset there, then into `N` components at the copy's offset, is into `N` components at
the sum of the offsets. Past the inner composite's components the block selects nothing, so
cutting the mask there changes nothing. -/
theorem shiftMask_shiftMask (blk₁ blk₂ blk : Block) {N₁ N : Nat} {mk : Mask}
    (hoff : blk.compOffset = blk₁.compOffset + blk₂.compOffset)
    (h₂ : blk₂.compOffset + mk.size ≤ N₁) :
    shiftMask blk₁ N (shiftMask blk₂ N₁ mk) = shiftMask blk N mk := by
  refine congrArg Mask.mk (List.ext_getElem (by simp [shiftMask]) fun k hk _ => ?_)
  simp only [shiftMask, List.getElem_map, List.getElem_range, Mask.get, hoff]
  by_cases h₁ : blk₁.compOffset ≤ k
  · by_cases hin : k - blk₁.compOffset < N₁
    · -- inside the inner composite's components
      rw [List.getD_eq_getElem _ _ (by simpa using hin), List.getElem_map, List.getElem_range]
      simp only [h₁, Nat.sub_sub]
      by_cases h₂' : blk₂.compOffset ≤ k - blk₁.compOffset
      · simp [h₂', show blk₁.compOffset + blk₂.compOffset ≤ k by omega]
      · simp [h₂', show ¬blk₁.compOffset + blk₂.compOffset ≤ k by omega]
    · -- past them the block's mask has no entries
      rw [List.getD_eq_default _ _ (by simpa using Nat.le_of_not_lt hin),
        List.getD_eq_default _ _ (by simp only [Mask.size] at h₂; omega)]
      simp
  · simp [h₁, show ¬blk₁.compOffset + blk₂.compOffset ≤ k by omega]

/-! ### Values handed out block by block -/

section Replicate

variable {ε β : Type} (g : Store → Except ε β)

/-- `m` copies of one store, then more stores. -/
theorem mapM_replicate_append {I : Store} {MI : β} (hI : g I = .ok MI) (m : Nat)
    (σ₂ : List Store) :
    (List.replicate m I ++ σ₂).mapM g = (σ₂.mapM g).map (List.replicate m MI ++ ·) := by
  rw [List.mapM_append]
  have hrep : (List.replicate m I).mapM g = .ok (List.replicate m MI) := by
    induction m with
    | zero => rfl
    | succ m ih =>
      rw [List.replicate_succ, List.mapM_cons, hI, ih, List.replicate_succ]
      rfl
  rw [hrep]
  cases σ₂.mapM g <;> rfl

/-- `m` copies of a list of stores, then more stores. -/
theorem mapM_flatten_replicate_append {σ₁ : List Store} {ms : List β} (h₁ : σ₁.mapM g = .ok ms)
    (m : Nat) (σ₂ : List Store) :
    ((List.replicate m σ₁).flatten ++ σ₂).mapM g =
      (σ₂.mapM g).map ((List.replicate m ms).flatten ++ ·) := by
  rw [List.mapM_append]
  have hrep : ((List.replicate m σ₁).flatten).mapM g = .ok (List.replicate m ms).flatten := by
    induction m with
    | zero => rfl
    | succ m ih =>
      rw [List.replicate_succ, List.flatten_cons, List.mapM_append, h₁, ih, List.replicate_succ,
        List.flatten_cons]
      rfl
  rw [hrep]
  cases σ₂.mapM g <;> rfl

end Replicate

end FiniteElements.Element
