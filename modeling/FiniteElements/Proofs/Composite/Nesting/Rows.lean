import FiniteElements.Proofs.Composite.Layouts

/-!
# Dofs of a nested composite, read in the flattened one

A composite can be a base of another composite. When the first `m` blocks of a composite are the
copies of an inner composite with `nI` blocks, the same composite built from `m` copies of the
inner bases, in place of the inner composite, has `nI` blocks for every copy. Each of its layouts
(cell dofs, face dofs, constraint rows and columns) is made slot by slot, and in each slot block
by block (`blockRow`): so a dof of a copy of the inner composite becomes the inner block dof its
index has in the inner layout, in that copy's run of inner blocks (`nestDof`).

`map_nestDof_blockRow` says this for one slot: when the inner composite gives each slot a run of
its own dofs, block by block as its blocks do, the nested slot read through `nestDof` is the flat
slot.

## Main definitions

* `FiniteElements.Element.blockRow`, `FiniteElements.Element.nestDof`

## Main results

* `FiniteElements.Element.map_nestDof_blockRow`
* `FiniteElements.Element.index_lt_of_mem_blockRow`
-/

namespace FiniteElements.Element

set_option autoImplicit false

section Ranges

/-- Counting up to a sum of parts is counting through each part in turn. -/
theorem range_sum_eq_flatMap (ν : Nat → Nat) (B : Nat) :
    List.range ((List.range B).map ν).sum =
      (List.range B).flatMap fun β => (List.range (ν β)).map (((List.range β).map ν).sum + ·) := by
  induction B with
  | zero => simp
  | succ B ih =>
    rw [List.range_succ, List.map_append, List.sum_append, List.range_add, ih,
      List.flatMap_append, List.flatMap_singleton]
    simp

/-- Counting to `m n` is counting `m` runs of `n`. -/
theorem flatMap_range_mul {α : Type} (f : Nat → List α) (m n : Nat) :
    (List.range (m * n)).flatMap f =
      (List.range m).flatMap fun t => (List.range n).flatMap fun β => f (t * n + β) := by
  induction m with
  | zero => simp
  | succ m ih =>
    rw [Nat.succ_mul, List.range_add, List.flatMap_append, ih, List.range_succ,
      List.flatMap_append, List.flatMap_singleton, List.flatMap_map]

end Ranges

/-- The dofs of one slot of a layout, block by block: `n β` dofs of block `β`, at its indices
`e β d`. -/
def blockRow (N : Nat) (n : Nat → Nat) (e : Nat → Nat → Nat) : List BlockDof :=
  (List.range N).flatMap fun β => (List.range (n β)).map fun d => ⟨β, e β d⟩

/-- A dof of a composite whose first `m` blocks are copies of an inner composite with layout `L`
over `nI` blocks, read in the composite that has the inner blocks in place of each copy: a dof of
copy `t` is the inner block dof `L[i]` of its index, in the `t`-th run of `nI` blocks; a later
block moves past all the inner blocks. -/
def nestDof (L : List BlockDof) (m nI : Nat) (bd : BlockDof) : BlockDof :=
  if bd.block < m then
    ⟨bd.block * nI + (L.getD bd.index default).block, (L.getD bd.index default).index⟩
  else ⟨bd.block - m + m * nI, bd.index⟩

section Nest

variable {L : List BlockDof} {m nI K P : Nat} {ν : Nat → Nat} {η : Nat → Nat → Nat}
  {nO nF : Nat → Nat} {eO eF : Nat → Nat → Nat}
  (hL : ∀ β < nI, ∀ d < ν β, L[P + ((List.range β).map ν).sum + d]? = some ⟨β, η β d⟩)
  (hnO : ∀ t < m, nO t = ((List.range nI).map ν).sum) (heO : ∀ t < m, ∀ d, eO t d = P + d)

include hL hnO heO in
/-- A copy of the inner composite in one slot: its dofs read in the inner layout are the inner
blocks' dofs of the slot, in the copy's run of blocks. -/
theorem map_nestDof_copy {t : Nat} (ht : t < m) :
    ((List.range (nO t)).map fun d => (⟨t, eO t d⟩ : BlockDof)).map (nestDof L m nI) =
      (List.range nI).flatMap fun β => (List.range (ν β)).map fun d => ⟨t * nI + β, η β d⟩ := by
  rw [hnO t ht, range_sum_eq_flatMap, List.map_flatMap, List.map_flatMap]
  refine List.flatMap_congr fun β hβ => ?_
  rw [List.map_map, List.map_map]
  refine List.map_congr_left fun d hd => ?_
  have hβ := List.mem_range.1 hβ
  have hd := List.mem_range.1 hd
  have hget : L.getD (P + (((List.range β).map ν).sum + d)) default = ⟨β, η β d⟩ := by
    rw [List.getD_eq_getElem?_getD, ← Nat.add_assoc, hL β hβ d hd, Option.getD_some]
  simp only [Function.comp_apply, nestDof, if_pos ht, heO t ht, hget]

include hL hnO heO in
/-- **One slot of a nested composite, read in the flattened one.** When the inner composite's
dofs of the slot start at `P` of its layout and run block by block through its blocks, the copies
of the inner composite become runs of inner blocks, and the later blocks move past them. -/
theorem map_nestDof_blockRow
    (hnF : ∀ t < m, ∀ β < nI, nF (t * nI + β) = ν β)
    (heF : ∀ t < m, ∀ β < nI, eF (t * nI + β) = η β)
    (hnK : ∀ j < K, nO (m + j) = nF (m * nI + j)) (heK : ∀ j < K, eO (m + j) = eF (m * nI + j)) :
    (blockRow (m + K) nO eO).map (nestDof L m nI) = blockRow (m * nI + K) nF eF := by
  unfold blockRow
  rw [List.range_add, List.range_add, List.flatMap_append, List.flatMap_append, List.map_append,
    List.map_flatMap, List.map_flatMap, flatMap_range_mul]
  congr 1
  · -- the copies of the inner composite
    refine List.flatMap_congr fun t ht => ?_
    have ht := List.mem_range.1 ht
    rw [map_nestDof_copy hL hnO heO ht]
    refine List.flatMap_congr fun β hβ => ?_
    have hβ := List.mem_range.1 hβ
    rw [hnF t ht β hβ, heF t ht β hβ]
  · -- the later blocks keep their dofs
    rw [List.flatMap_map, List.flatMap_map]
    refine List.flatMap_congr fun j hj => ?_
    have hj := List.mem_range.1 hj
    rw [List.map_map, hnK j hj, heK j hj]
    refine List.map_congr_left fun d _ => ?_
    simp [nestDof, Nat.add_comm]

include hL hnO heO in
/-- The dofs of the copies of the inner composite have indices in its layout. -/
theorem index_lt_of_mem_blockRow {bd : BlockDof} (hbd : bd ∈ blockRow (m + K) nO eO)
    (hm : bd.block < m) : bd.index < L.length := by
  simp only [blockRow, List.mem_flatMap, List.mem_map] at hbd
  obtain ⟨t, -, d, hd, rfl⟩ := hbd
  rw [hnO t hm, range_sum_eq_flatMap, List.mem_flatMap] at hd
  obtain ⟨β, hβ, hd⟩ := hd
  obtain ⟨d', hd', rfl⟩ := List.mem_map.1 hd
  have := hL β (List.mem_range.1 hβ) d' (List.mem_range.1 hd')
  rw [heO t hm, ← Nat.add_assoc]
  exact (List.getElem?_eq_some_iff.1 this).1

end Nest

end FiniteElements.Element
