import FiniteElements.Proofs.Composite.InterfaceConstraints
import FiniteElements.Proofs.Composite.Nesting.Rows
import FiniteElements.Proofs.Composite.Nesting.Blocks

/-!
# The layouts of a nested composite, read in its flattening

Let `I` be a composite of bases `S₁`, with `n₁` blocks and cell layout `L₁`. The nested composite
of `(I, m) :: S₂` and its flattening, of `S₁` repeated `m` times and then `S₂`, list their dofs
slot by slot: one slot for a blocked layout, one per object for an interleaved one, one per group
for the rows and the columns of the interface constraints. In each slot the dofs come block by
block (`blockRow`), and `I` gives each slot a run of its own dofs that comes block by block through
its own blocks. So every layout of the nested composite, read through `nestDof L₁ m n₁`, is the
same layout of the flattening (`Nests`):

* the cell layouts (`nests_cellLayout`) and the face layouts (`nests_faceLayout`), in both
  packings;
* the rows and the columns of the interface constraints (`nests_decodeGroups`), when `I` counts
  its dofs exactly.

A layout that nests also says where its dofs lie: in the blocks, and for a copy of `I` at an index
of `I`'s own layout (`Nests.mem`), which is what reading a dof of `I` there needs.

## Main definitions

* `FiniteElements.Element.Nests`

## Main results

* `FiniteElements.Element.nests_cellLayout`, `FiniteElements.Element.nests_faceLayout`
* `FiniteElements.Element.nests_decodeGroups`
-/

namespace FiniteElements.Element

set_option autoImplicit false

open FiniteElements.Cell FiniteElements.Constraint

/-- A layout `LO` of a composite whose first `m` blocks are copies of an inner composite with
layout `LI` over `nI` blocks, followed by `K` more blocks, is the layout `LF` of its flattening
read through `nestDof`; its dofs lie in its blocks, those of a copy at indices of `LI`. -/
structure Nests (LO LI LF : List BlockDof) (m nI K : Nat) : Prop where
  map_eq : LO.map (nestDof LI m nI) = LF
  mem : ∀ bd ∈ LO, bd.block < m + K ∧ (bd.block < m → bd.index < LI.length)

theorem block_lt_of_mem_blockRow {N : Nat} {n : Nat → Nat} {e : Nat → Nat → Nat} {bd : BlockDof}
    (h : bd ∈ blockRow N n e) : bd.block < N := by
  simp only [blockRow, List.mem_flatMap, List.mem_map, List.mem_range] at h
  obtain ⟨β, hβ, -, -, rfl⟩ := h
  exact hβ

namespace Nests

variable {LI : List BlockDof} {m nI K : Nat}

/-- Layouts made slot by slot nest when every slot does. -/
theorem flatMap {α : Type} {S : List α} {fO fF : α → List BlockDof}
    (h : ∀ s ∈ S, Nests (fO s) LI (fF s) m nI K) :
    Nests (S.flatMap fO) LI (S.flatMap fF) m nI K where
  map_eq := by
    rw [List.map_flatMap]
    exact List.flatMap_congr fun s hs => (h s hs).map_eq
  mem bd hbd := by
    obtain ⟨s, hs, hbd⟩ := List.mem_flatMap.1 hbd
    exact (h s hs).mem bd hbd

/-- **One slot nests** when the inner composite's dofs of the slot start at `P` of its layout and
run block by block through its blocks (`map_nestDof_blockRow`). -/
theorem blockRow {P : Nat} {ν : Nat → Nat} {η : Nat → Nat → Nat} {nO nF : Nat → Nat}
    {eO eF : Nat → Nat → Nat}
    (hL : ∀ β < nI, ∀ d < ν β, LI[P + ((List.range β).map ν).sum + d]? = some ⟨β, η β d⟩)
    (hnO : ∀ t < m, nO t = ((List.range nI).map ν).sum) (heO : ∀ t < m, ∀ d, eO t d = P + d)
    (hnF : ∀ t < m, ∀ β < nI, nF (t * nI + β) = ν β)
    (heF : ∀ t < m, ∀ β < nI, eF (t * nI + β) = η β)
    (hnK : ∀ j < K, nO (m + j) = nF (m * nI + j)) (heK : ∀ j < K, eO (m + j) = eF (m * nI + j)) :
    Nests (FiniteElements.Element.blockRow (m + K) nO eO) LI
      (FiniteElements.Element.blockRow (m * nI + K) nF eF) m nI K where
  map_eq := map_nestDof_blockRow hL hnO heO hnF heF hnK heK
  mem _ hbd := ⟨block_lt_of_mem_blockRow hbd, index_lt_of_mem_blockRow hL hnO heO hbd⟩

end Nests

/-! ### Layouts as slots of block rows -/

theorem blockwise_eq_blockRow (B : Nat) (n : Nat → Nat) :
    blockwise B n = blockRow B n fun _ d => d := rfl

/-- An interleaved layout, object kind by object kind and object by object, one block row per
object. -/
theorem interleavedDofs_eq_blockRow (blocks : List Block) (objects : List Nat) (top : Nat)
    (first : DofLayout → Nat → Int) :
    interleavedDofs blocks objects top first =
      (List.range top).flatMap fun k => (List.range (objects.getD k 0)).flatMap fun (o : Nat) =>
        blockRow blocks.length (kindCount blocks · k) fun β (d : Nat) =>
          (first (blocks.getD β default).store.layout k +
            o * (blocks.getD β default).store.layout.countOf k + d).toNat := by
  simp only [interleavedDofs, zipIdx_flatMap, blockRow]

/-- A constraint layout, one block row per group. -/
theorem decodeGroups_eq_blockRow (groups : List Group) (blocks : List Block) :
    decodeGroups groups blocks =
      (List.range groups.length).flatMap fun g =>
        blockRow blocks.length (groupCount groups blocks · g) fun β (d : Nat) =>
          ((groupOffsets groups (blocks.getD β default).store.layout.objectCounts).getD g 0 +
            d).toNat := by
  unfold decodeGroups blockRow
  rw [zipIdx_flatMap]
  refine List.flatMap_congr fun g _ => ?_
  dsimp only
  rw [zipIdx_flatMap]
  refine List.flatMap_congr fun β hβ => ?_
  have hβ := List.mem_range.1 hβ
  simp only [List.getD_eq_getElem?_getD (l := blocks.map _), List.getElem?_map,
    List.getElem?_eq_getElem hβ, Option.map_some, Option.getD_some, groupCount]
  simp [List.getD_eq_getElem?_getD, List.getElem?_eq_getElem hβ]

theorem block_lt_of_mem_decodeGroups {groups : List Group} {blocks : List Block} {bd : BlockDof}
    (h : bd ∈ decodeGroups groups blocks) : bd.block < blocks.length := by
  rw [decodeGroups_eq_blockRow] at h
  obtain ⟨g, -, h⟩ := List.mem_flatMap.1 h
  exact block_lt_of_mem_blockRow h

/-! ### The inner composite's counts -/

namespace CompositeRun

variable {p : Packing} {S₁ : List (Option Store × Int)} {I : Store} (rI : CompositeRun p S₁ I)
  (hwf : ∀ x ∈ rI.bases, x.1.WellFormed)
include hwf

/-- The cell dofs of a composite are those of its blocks, as natural numbers. -/
theorem sum_blockCells :
    ((List.range (blocksOf rI.bases).length).map (blockCells (blocksOf rI.bases))).sum =
      I.dofsPerCell.toNat := by
  rw [map_range_blockCells, rI.dofsPerCell_eq hwf,
    ← natCast_sum_toNat (f := fun blk : Block => blk.store.dofsPerCell) _ fun blk hblk =>
    Int.le_of_lt (rI.mem_wellFormed hwf hblk).1.layout_wf.dofsPerCell_pos, Int.toNat_natCast]

/-- The face dofs of a composite are those of its blocks, as natural numbers. -/
theorem sum_blockFaces :
    ((List.range (blocksOf rI.bases).length).map (blockFaces (blocksOf rI.bases))).sum =
      I.layout.dofsPerFace.toNat := by
  rw [map_range_blockFaces, rI.dofsPerFace_eq hwf, ← natCast_sum_toNat _ fun blk hblk =>
    (rI.mem_wellFormed hwf hblk).1.face_nonneg, Int.toNat_natCast]

/-- The components of a composite are those of its blocks, as natural numbers. -/
theorem sum_components_toNat :
    ((blocksOf rI.bases).map fun blk => blk.store.components.toNat).sum = I.components.toNat := by
  rw [rI.components_store, summedComponents,
    ← natCast_sum_toNat (f := fun blk : Block => blk.store.components) _ fun blk hblk =>
    Int.le_of_lt (rI.mem_wellFormed hwf hblk).1.layout_wf.components_pos, Int.toNat_natCast]

theorem sum_dofsPerCell_toNat :
    ((blocksOf rI.bases).map fun blk => blk.store.dofsPerCell.toNat).sum = I.dofsPerCell.toNat := by
  rw [← map_range_blockCells, rI.sum_blockCells hwf]

end CompositeRun

/-! ### The layouts of a nested composite -/

section Slots

variable {I : Store} {S₁ : List (Store × Nat)} (m : Nat) (S₂ : List (Store × Nat))

/-- **An interleaved layout nests** when the inner composite counts its dofs on each kind of object
as its blocks do, numbering them from the blocks' offsets. -/
theorem nests_interleavedDofs (objects : List Nat) (top : Nat) (first : DofLayout → Nat → Int)
    (hcount : ∀ k < top, I.layout.countOf k = kindTotal (blocksOf S₁) k)
    (hfirst : ∀ k < top,
      first I.layout k = objectOffset (objects.getD · 0) (kindTotal (blocksOf S₁)) k) :
    Nests (interleavedDofs (blocksOf ((I, m) :: S₂)) objects top first)
      (interleavedDofs (blocksOf S₁) objects top first)
      (interleavedDofs (blocksOf ((List.replicate m S₁).flatten ++ S₂)) objects top first) m
      (blocksOf S₁).length (blocksOf S₂).length := by
  rw [interleavedDofs_eq_blockRow (blocksOf ((I, m) :: S₂)),
    interleavedDofs_eq_blockRow (blocksOf ((List.replicate m S₁).flatten ++ S₂)),
    length_blocksOf_nested, length_blocksOf_flat]
  refine Nests.flatMap fun k hk => Nests.flatMap fun o ho => ?_
  have hk := List.mem_range.1 hk
  have ho := List.mem_range.1 ho
  -- in the slot of object `o` of kind `k`, a copy of `I` carries the inner dofs of that object
  refine Nests.blockRow
      (P := objectOffset (objects.getD · 0) (kindTotal (blocksOf S₁)) k +
        o * kindTotal (blocksOf S₁) k)
      (ν := (kindCount (blocksOf S₁) · k))
      (η := fun β (d : Nat) => (first ((blocksOf S₁).getD β default).store.layout k +
        o * ((blocksOf S₁).getD β default).store.layout.countOf k + d).toNat)
      (fun β hβ d hd => getElem?_interleavedDofs hk ho hβ hd) (fun t ht => ?_) (fun t ht d => ?_)
      (fun t ht β hβ => by simp only [kindCount, store_flat_copy ht hβ])
      (fun t ht β hβ => by simp only [store_flat_copy ht hβ])
      (fun j _ => by simp only [kindCount, store_rest S₁])
      (fun j _ => by simp only [store_rest S₁])
  · simp only [kindCount, store_nested_copy ht, hcount k hk, Int.toNat_natCast, kindTotal]
    exact congrArg List.sum
      (map_range_getD (blocksOf S₁) fun blk => (blk.store.layout.countOf k).toNat).symm
  · simp only [store_nested_copy ht, hfirst k hk, hcount k hk]
    omega

/-- **A blocked layout nests** when the inner composite has as many dofs as its blocks. -/
theorem nests_blockwise (count : Store → Nat)
    (hsum : ((List.range (blocksOf S₁).length).map fun β =>
      count ((blocksOf S₁).getD β default).store).sum = count I) :
    Nests (blockwise (blocksOf ((I, m) :: S₂)).length fun β =>
        count ((blocksOf ((I, m) :: S₂)).getD β default).store)
      (blockwise (blocksOf S₁).length fun β => count ((blocksOf S₁).getD β default).store)
      (blockwise (blocksOf ((List.replicate m S₁).flatten ++ S₂)).length fun β =>
        count ((blocksOf ((List.replicate m S₁).flatten ++ S₂)).getD β default).store) m
      (blocksOf S₁).length (blocksOf S₂).length := by
  rw [blockwise_eq_blockRow (blocksOf ((I, m) :: S₂)).length,
    blockwise_eq_blockRow (blocksOf ((List.replicate m S₁).flatten ++ S₂)).length,
    length_blocksOf_nested, length_blocksOf_flat]
  -- one slot: a copy of `I` carries the inner dofs in order
  refine Nests.blockRow (P := 0) (ν := fun β => count ((blocksOf S₁).getD β default).store)
    (η := fun _ d => d) (fun β hβ d hd => ?_) (fun t ht => ?_) (fun t ht d => by simp)
    (fun t ht β hβ => by simp only [store_flat_copy ht hβ]) (fun t ht β hβ => rfl)
    (fun j _ => by simp only [store_rest S₁]) (fun j _ => rfl)
  · rw [Nat.zero_add, blockwise, getElem?_flatMap_range_of_length
      (n := fun β => count ((blocksOf S₁).getD β default).store) (fun b => by simp) hβ hd,
      List.getElem?_map, List.getElem?_range hd]
    rfl
  · simp only [store_nested_copy ht]
    exact hsum.symm

/-- Groups start at nonnegative offsets when the counts are nonnegative. -/
theorem getD_groupOffsets_nonneg {groups : List Group} {counts : List Int}
    (hnn : ∀ j, 0 ≤ counts.getD j 0) {g : Nat} (hg : g ≤ groups.length) :
    0 ≤ (groupOffsets groups counts).getD g 0 := by
  rw [getD_groupOffsets hg]
  exact List.sum_nonneg fun x hx => by
    obtain ⟨j, -, rfl⟩ := List.mem_map.1 hx
    exact hnn _

/-- **A constraint layout nests** when the inner composite has, on the objects of every group, as
many dofs as its blocks. -/
theorem nests_decodeGroups_of_count (groups : List Group)
    (hnn : ∀ blk ∈ blocksOf S₁, ∀ j, 0 ≤ blk.store.layout.objectCounts.getD j 0)
    (hcount : ∀ g < groups.length, I.layout.objectCounts.getD (groups.getD g default).objectDim 0 =
      (groupStart (groupCount groups (blocksOf S₁) · g) (blocksOf S₁).length : Int)) :
    Nests (decodeGroups groups (blocksOf ((I, m) :: S₂))) (decodeGroups groups (blocksOf S₁))
      (decodeGroups groups (blocksOf ((List.replicate m S₁).flatten ++ S₂))) m
      (blocksOf S₁).length (blocksOf S₂).length := by
  rw [decodeGroups_eq_blockRow groups (blocksOf ((I, m) :: S₂)),
    decodeGroups_eq_blockRow groups (blocksOf ((List.replicate m S₁).flatten ++ S₂)),
    length_blocksOf_nested, length_blocksOf_flat]
  refine Nests.flatMap fun g hg => ?_
  have hg := List.mem_range.1 hg
  -- in group `g`, a copy of `I` carries the inner dofs of the group
  refine Nests.blockRow
      (P := groupStart (fun g => groupStart (groupCount groups (blocksOf S₁) · g)
        (blocksOf S₁).length) g)
      (ν := (groupCount groups (blocksOf S₁) · g))
      (η := fun β (d : Nat) => ((groupOffsets groups
        ((blocksOf S₁).getD β default).store.layout.objectCounts).getD g 0).toNat + d)
      (fun β hβ d hd => getElem?_decodeGroups hnn hg hβ hd) (fun t ht => ?_) (fun t ht d => ?_)
      (fun t ht β hβ => by simp only [groupCount, store_flat_copy ht hβ])
      (fun t ht β hβ => funext fun d => ?_)
      (fun j _ => by simp only [groupCount, store_rest S₁])
      (fun j _ => by simp only [store_rest S₁])
  · simp only [groupCount, store_nested_copy ht, hcount g hg, Int.toNat_natCast]
    rfl
  · -- the group starts in `I` after the inner dofs of the groups before it
    have hstart : (groupOffsets groups I.layout.objectCounts).getD g 0 =
        ((groupStart (fun g => groupStart (groupCount groups (blocksOf S₁) · g)
          (blocksOf S₁).length) g : Nat) : Int) := by
      rw [getD_groupOffsets hg.le, groupStart, Nat.cast_list_sum, List.map_map]
      exact congrArg List.sum (List.map_congr_left fun j hj =>
        hcount j (by have := List.mem_range.1 hj; omega))
    simp only [store_nested_copy ht, hstart]
    omega
  · have hmem := getD_mem_of_lt default hβ
    have hoff := getD_groupOffsets_nonneg (hnn _ hmem) hg.le
    simp only [store_flat_copy ht hβ]
    omega

end Slots

section Nested

variable {p : Packing} {S₁ : List (Option Store × Int)} {I : Store} (rI : CompositeRun p S₁ I)
  (hwf : ∀ x ∈ rI.bases, x.1.WellFormed) (m : Nat) (S₂ : List (Store × Nat))
include hwf

/-- **The cell layout of a nested composite is that of its flattening**, read through the inner
composite's cell layout. -/
theorem nests_cellLayout :
    Nests (cellLayout rI.cell p (blocksOf ((I, m) :: S₂)))
      (cellLayout rI.cell p (blocksOf rI.bases))
      (cellLayout rI.cell p (blocksOf ((List.replicate m rI.bases).flatten ++ S₂))) m
      (blocksOf rI.bases).length (blocksOf S₂).length := by
  rcases rI.packing_eq with hp | hp
  · subst hp
    refine nests_interleavedDofs m S₂ _ _ _ (fun k hk => ?_) (fun k hk => ?_)
    · exact rI.countOf_eq_kindTotal hwf rfl (by omega)
    · rw [rI.layout_store]
      exact rI.firstOf_of_interleaved hwf rfl (by omega)
  · subst hp
    simp only [cellLayout_blocked]
    exact nests_blockwise m S₂ (fun S => S.dofsPerCell.toNat) (rI.sum_blockCells hwf)

/-- **The face layout of a nested composite is that of its flattening**, read through the inner
composite's face layout. -/
theorem nests_faceLayout :
    Nests (faceLayout rI.cell p (blocksOf ((I, m) :: S₂)))
      (faceLayout rI.cell p (blocksOf rI.bases))
      (faceLayout rI.cell p (blocksOf ((List.replicate m rI.bases).flatten ++ S₂))) m
      (blocksOf rI.bases).length (blocksOf S₂).length := by
  rcases rI.packing_eq with hp | hp
  · subst hp
    refine nests_interleavedDofs m S₂ _ _ _ (fun k hk => ?_) (fun k hk => ?_)
    · exact rI.countOf_eq_kindTotal hwf rfl (by omega)
    · rw [rI.layout_store]
      exact rI.firstFaceOf_of_interleaved hwf rfl hk
  · subst hp
    simp only [faceLayout_blocked]
    exact nests_blockwise m S₂ (fun S => S.layout.dofsPerFace.toNat) (rI.sum_blockFaces hwf)

/-- **The rows and the columns of a nested composite's constraints are those of its
flattening**, read through the inner composite's, when the inner composite counts its dofs
exactly. -/
theorem nests_decodeGroups
    (hfit : ∀ blk ∈ blocksOf rI.bases, blk.store.layout.cellPrefix rI.cell 4 < 2 ^ 63)
    {groups : List Group} (hgroups : ∀ grp ∈ groups, (grp.objectDim : Int) < I.layout.dim) :
    Nests (decodeGroups groups (blocksOf ((I, m) :: S₂))) (decodeGroups groups (blocksOf rI.bases))
      (decodeGroups groups (blocksOf ((List.replicate m rI.bases).flatten ++ S₂))) m
      (blocksOf rI.bases).length (blocksOf S₂).length := by
  refine nests_decodeGroups_of_count m S₂ groups (rI.blocks_objectCounts_nonneg hwf)
    fun g hg => ?_
  have hk := hgroups _ (getD_mem_of_lt default hg)
  rw [rI.groupStart_groupCount hwf hfit hgroups hg, objectCounts_getD hk.le,
    Int.toNat_of_nonneg (rI.layout_store ▸ rI.layout_wf.1.count_nonneg _)]

end Nested

end FiniteElements.Element
