import FiniteElements.Proofs.Composite.Counting

/-!
# The component numbering of a composite

A composite does not number its components from its own masks. It takes each block's component
table and moves the block's components past those of the blocks before it (`systemTables`), and it
moves each block mask the same way (`shiftMask`). The two agree: the composite's table is the
component numbering of its masks (`CompositeRun.components_table`), so a composite of well-formed
stores is well formed (`CompositeRun.wellFormed`).

Two facts about the blocks carry the argument. Their component ranges do not overlap
(`compOffset_getD_blocksOf`, `eq_of_sum_range_add`), so a composite mask that selects one component
names its block; and each block's dofs come in the block's own order (`CompositeRun.cell_ordered`),
so the rank of a dof among the composite's dofs of its component is its rank in its block
(`CompositeRun.rank_eq`).

## Main definitions

* `blockDofMask`: the mask of a block dof in its block.

## Main results

* `single?_shiftMask`: a moved mask selects the moved component.
* `CompositeRun.masks_eq_map`: the composite's masks are the moved block masks.
* `CompositeRun.components_table`, `CompositeRun.wellFormed`
-/

namespace FiniteElements.Element

set_option autoImplicit false

open FiniteElements.Cell

section Shift

variable (blk : Block) {n : Nat} {m : Mask} (h : blk.compOffset + m.size ≤ n)
include h

/-- A block mask moved into `n` components is unselected before and after the block's range. -/
theorem shiftMask_bits : (shiftMask blk n m).bits =
    List.replicate blk.compOffset false ++ m.bits ++
      List.replicate (n - blk.compOffset - m.size) false := by
  have hlen : (shiftMask blk n m).bits.length =
      (List.replicate blk.compOffset false ++ m.bits ++
        List.replicate (n - blk.compOffset - m.size) false).length := by
    simp only [shiftMask, Mask.size] at h ⊢
    simp only [List.length_map, List.length_range, List.length_append, List.length_replicate]
    omega
  refine List.ext_getElem hlen fun k h₁ _ => ?_
  simp only [shiftMask, List.getElem_map, List.getElem_range, Mask.get]
  -- entry `k` lies before, inside or after the block's range
  rcases Nat.lt_or_ge k blk.compOffset with hlo | hlo
  · rw [List.getElem_append_left (by simp [Mask.size] at h ⊢; omega),
      List.getElem_append_left (by simpa using hlo)]
    simp [Nat.not_le.2 hlo]
  rcases Nat.lt_or_ge k (blk.compOffset + m.size) with hhi | hhi
  · rw [List.getElem_append_left (by simp [Mask.size] at hhi ⊢; omega),
      List.getElem_append_right (by simpa using hlo)]
    simp [hlo, List.getD_eq_getElem?_getD,
      List.getElem?_eq_getElem (by simp only [Mask.size] at hhi; omega : k - blk.compOffset < m.bits.length)]
  · rw [List.getElem_append_right (by simp [Mask.size] at hhi ⊢; omega)]
    simp [hlo, List.getD_eq_getElem?_getD,
      List.getElem?_eq_none (by simp only [Mask.size] at hhi; omega : m.bits.length ≤ k - blk.compOffset)]

theorem count_shiftMask : (shiftMask blk n m).count = m.count := by
  simp [Mask.count, shiftMask_bits blk h, List.countP_append, List.countP_replicate]

/-- **A moved mask selects the moved component**, and only when the block mask selects one. -/
theorem single?_shiftMask : (shiftMask blk n m).single? = m.single?.map (blk.compOffset + ·) := by
  unfold Mask.single?
  rw [count_shiftMask blk h]
  split
  · rw [shiftMask_bits blk h, List.findIdx?_append, List.findIdx?_append]
    cases m.bits.findIdx? id <;> simp [List.findIdx?_replicate, Nat.add_comm]
  · rfl

end Shift

/-- The mask of a block dof in its block. -/
def blockDofMask (blocks : List Block) (bd : BlockDof) : Mask :=
  (blockAt blocks bd).store.masks.getD bd.index default

namespace CompositeRun

variable {p : Packing} {specs : List (Option Store × Int)} {E : Store}
  (r : CompositeRun p specs E) (hwf : ∀ x ∈ r.bases, x.1.WellFormed)
include hwf

/-- A composite cell dof is a dof of its block. -/
theorem mem_cellLayout {bd : BlockDof} (hbd : bd ∈ cellLayout r.cell p (blocksOf r.bases)) :
    bd.block < (blocksOf r.bases).length ∧
      (bd.index : Int) < (blockAt (blocksOf r.bases) bd).store.dofsPerCell := by
  obtain ⟨hβ, hk⟩ := (r.cell_ordered hwf).mem.1 (show (⟨bd.block, bd.index⟩ : BlockDof) ∈ _ from hbd)
  refine ⟨hβ, ?_⟩
  have hpos := (r.block_wellFormed hwf hβ).1.layout_wf.dofsPerCell_pos
  simp only [blockCells, Store.dofsPerCell] at hk hpos
  simp only [blockAt, Store.dofsPerCell]
  omega

/-- The block masks are of their block's components. -/
theorem size_blockDofMask {bd : BlockDof} (hbd : bd ∈ cellLayout r.cell p (blocksOf r.bases)) :
    (blockDofMask (blocksOf r.bases) bd).size =
      (blockAt (blocksOf r.bases) bd).store.components.toNat := by
  obtain ⟨hβ, hk⟩ := r.mem_cellLayout hwf hbd
  have hS := (r.block_wellFormed hwf hβ).1
  simp only [blockDofMask, blockAt] at hk ⊢
  have hlen : bd.index < ((blocksOf r.bases).getD bd.block default).store.masks.length := by
    have := hS.masks_length
    omega
  have := hS.mask_size _ (getD_mem_of_lt default hlen)
  omega

/-- A block's components end before the composite's. -/
theorem compOffset_add_le {β : Nat} (hβ : β < (blocksOf r.bases).length) :
    ((blocksOf r.bases).getD β default).compOffset +
        ((blocksOf r.bases).getD β default).store.components.toNat ≤
      (summedComponents (blocksOf r.bases)).toNat := by
  have hsum : ((((blocksOf r.bases).map fun blk => blk.store.components.toNat).sum : Nat) : Int) =
      summedComponents (blocksOf r.bases) := natCast_sum_toNat _ fun blk hblk =>
    Int.le_of_lt ((r.mem_wellFormed hwf hblk).1.layout_wf.components_pos)
  have hle := sum_range_add_le
    (n := fun β' => ((blocksOf r.bases).getD β' default).store.components.toNat) hβ
  rw [map_range_getD (blocksOf r.bases) fun blk => blk.store.components.toNat] at hle
  rw [compOffset_getD_blocksOf hβ]
  omega

/-- **The composite's masks are its blocks' masks**, each moved to its block's components. -/
theorem masks_eq_map : r.definition.masks = (cellLayout r.cell p (blocksOf r.bases)).map fun bd =>
    shiftMask (blockAt (blocksOf r.bases) bd) (summedComponents (blocksOf r.bases)).toNat
      (blockDofMask (blocksOf r.bases) bd) := by
  have h : (cellLayout r.cell p (blocksOf r.bases)).mapM
      (blockMask (blocksOf r.bases) (summedComponents (blocksOf r.bases))) =
        .ok ((cellLayout r.cell p (blocksOf r.bases)).map fun bd =>
          shiftMask (blockAt (blocksOf r.bases) bd) (summedComponents (blocksOf r.bases)).toNat
            (blockDofMask (blocksOf r.bases) bd)) :=
    mapM_eq_ok_map fun bd hbd => by
      simp only [blockMask, Store.nonzeroComponents, checkIndex_of_lt (r.mem_cellLayout hwf hbd).2,
        bind, Except.bind, pure, Except.pure, blockDofMask]
  rw [r.masks_eq] at h
  exact Except.ok.inj h

/-- A composite dof is primitive in block `β`'s component `c` exactly when it is a dof of block `β`
primitive in `c` there. -/
theorem single?_masks_eq {bd : BlockDof} (hbd : bd ∈ cellLayout r.cell p (blocksOf r.bases))
    {β c : Nat} (hβ : β < (blocksOf r.bases).length)
    (hc : c < ((blocksOf r.bases).getD β default).store.components.toNat) :
    ((shiftMask (blockAt (blocksOf r.bases) bd) (summedComponents (blocksOf r.bases)).toNat
        (blockDofMask (blocksOf r.bases) bd)).single? ==
          some (((blocksOf r.bases).getD β default).compOffset + c)) =
      ((blockDofMask (blocksOf r.bases) bd).single? == some c && bd.block == β) := by
  have hsize := r.size_blockDofMask hwf hbd
  have hβ' := (r.mem_cellLayout hwf hbd).1
  rw [single?_shiftMask _ (by have := r.compOffset_add_le hwf hβ'; simp only [blockAt] at hsize ⊢; omega)]
  cases hm : (blockDofMask (blocksOf r.bases) bd).single? with
  | none => simp
  | some c' =>
    have hc' := Mask.lt_size_of_single? hm
    rw [Bool.eq_iff_iff]
    simp only [Option.map_some, beq_iff_eq, Option.some.injEq, Bool.and_eq_true]
    rw [blockAt, compOffset_getD_blocksOf hβ', compOffset_getD_blocksOf hβ]
    constructor
    · intro heq
      obtain ⟨hb, hcc⟩ := eq_of_sum_range_add
        (n := fun β' => ((blocksOf r.bases).getD β' default).store.components.toNat)
        (by simp only [blockAt] at hsize; omega) hc heq
      exact ⟨hcc, hb⟩
    · rintro ⟨rfl, rfl⟩
      rfl

/-- **Ranks carry over.** The composite dofs before position `i` that are primitive in the moved
component `c` of block `β` are as many as the dofs of block `β` before its own dof there that are
primitive in `c`. -/
theorem rank_eq {i β k c : Nat} (hi : (cellLayout r.cell p (blocksOf r.bases))[i]? = some ⟨β, k⟩)
    (hc : (blockDofMask (blocksOf r.bases) ⟨β, k⟩).single? = some c) :
    ((r.definition.masks.take i).countP fun m =>
        m.single? == some (((blocksOf r.bases).getD β default).compOffset + c)) =
      ((((blocksOf r.bases).getD β default).store.masks.take k).countP fun m =>
        m.single? == some c) := by
  have hmem := List.mem_of_getElem? hi
  obtain ⟨hβ, hk⟩ := r.mem_cellLayout hwf hmem
  have hS := (r.block_wellFormed hwf hβ).1
  have hcomp : c < ((blocksOf r.bases).getD β default).store.components.toNat := by
    have := r.size_blockDofMask hwf hmem
    have := Mask.lt_size_of_single? hc
    simp only [blockAt] at *
    omega
  rw [r.masks_eq_map hwf, ← List.map_take, List.countP_map]
  -- an earlier composite dof counts when it is a dof of block `β` primitive in `c`
  have hsel : ∀ bd ∈ (cellLayout r.cell p (blocksOf r.bases)).take i,
      ((fun m : Mask => m.single? == some (((blocksOf r.bases).getD β default).compOffset + c)) ∘
        fun bd => shiftMask (blockAt (blocksOf r.bases) bd) (summedComponents (blocksOf r.bases)).toNat
          (blockDofMask (blocksOf r.bases) bd)) bd =
      ((blockDofMask (blocksOf r.bases) bd).single? == some c && bd.block == β) := fun bd hbd =>
    r.single?_masks_eq hwf (List.mem_of_mem_take hbd) hβ hcomp
  rw [List.countP_congr fun bd hbd => by rw [hsel bd hbd], ← List.countP_filter]
  -- the dofs of block `β` before position `i` are its first `k`
  have hfirst := filter_take ((r.cell_ordered hwf).filter_eq β hβ) hi
  have hlen : k ≤ ((blocksOf r.bases).getD β default).store.masks.length := by
    have := hS.masks_length
    simp only [blockAt, Store.dofsPerCell] at hk this
    omega
  have hblock : ∀ bd ∈ ((cellLayout r.cell p (blocksOf r.bases)).take i).filter (·.block == β),
      blockDofMask (blocksOf r.bases) bd =
        ((blocksOf r.bases).getD β default).store.masks.getD bd.index default := fun bd hbd => by
    have := (List.mem_filter.1 hbd).2
    simp only [beq_iff_eq] at this
    simp [blockDofMask, blockAt, this]
  rw [List.countP_congr fun bd hbd => by rw [hblock bd hbd]]
  have hM : ((blocksOf r.bases).getD β default).store.masks.take k =
      (List.range k).map fun j => ((blocksOf r.bases).getD β default).store.masks.getD j default := by
    simpa using map_take_eq_map_range _ id hlen
  rw [hM, List.countP_map, ← hfirst, List.countP_map]
  rfl

/-- **Entry by entry, the composite's component numbering** is its block's, moved to the block's
components: a composite dof is primitive exactly when its block dof is, in the moved component and
with the same rank. -/
theorem componentEntry_masks {i β k : Nat}
    (hi : (cellLayout r.cell p (blocksOf r.bases))[i]? = some ⟨β, k⟩) :
    componentEntry r.definition.masks i = shiftIndex ((blocksOf r.bases).getD β default)
      (((blocksOf r.bases).getD β default).store.systemToComponentIndex k) := by
  have hmem := List.mem_of_getElem? hi
  obtain ⟨hβ, hk⟩ := r.mem_cellLayout hwf hmem
  have hS := (r.block_wellFormed hwf hβ).1
  rw [hS.systemToComponentIndex_eq hk]
  have hmask : r.definition.masks.getD i default = shiftMask ((blocksOf r.bases).getD β default)
      (summedComponents (blocksOf r.bases)).toNat (blockDofMask (blocksOf r.bases) ⟨β, k⟩) := by
    rw [r.masks_eq_map hwf, List.getD_eq_getElem?_getD, List.getElem?_map, hi]
    rfl
  have hbound : ((blocksOf r.bases).getD β default).compOffset +
      (blockDofMask (blocksOf r.bases) ⟨β, k⟩).size ≤ (summedComponents (blocksOf r.bases)).toNat := by
    have := r.size_blockDofMask hwf hmem
    have := r.compOffset_add_le hwf hβ
    simp only [blockAt] at *
    omega
  cases hc : (blockDofMask (blocksOf r.bases) ⟨β, k⟩).single? with
  | none =>
    have hcount := Mask.single?_eq_none.1 hc
    simp only [blockDofMask, blockAt] at hcount
    rw [if_neg hcount]
    unfold componentEntry
    rw [hmask, single?_shiftMask _ hbound, hc]
    rfl
  | some c =>
    have hcount := (Mask.single?_eq_some.1 hc).1
    simp only [blockDofMask, blockAt] at hcount
    have hentry : componentEntry ((blocksOf r.bases).getD β default).store.masks k =
        ⟨c, ((((blocksOf r.bases).getD β default).store.masks.take k).countP
          fun m => m.single? == some c : Nat)⟩ :=
      componentEntry_eq_mk.2 ⟨hc, rfl⟩
    rw [if_pos hcount,
      componentEntry_eq_mk.2 ⟨by rw [hmask, single?_shiftMask _ hbound, hc]; rfl, r.rank_eq hwf hi hc⟩]
    dsimp only [shiftIndex]
    rw [hentry]
    push_cast
    rfl

/-- **The composite's component table is the component numbering of its masks.** -/
theorem components_table : r.tables.systemToComponent =
    numberComponents (summedComponents (blocksOf r.bases)).toNat r.definition.masks := by
  have hsize : ∀ m ∈ r.definition.masks, m.size ≤ (summedComponents (blocksOf r.bases)).toNat := by
    rw [r.masks_eq_map hwf]
    intro m hm
    obtain ⟨bd, -, rfl⟩ := List.mem_map.1 hm
    simp [shiftMask, Mask.size]
  have hlen : r.definition.masks.length = (cellLayout r.cell p (blocksOf r.bases)).length := by
    rw [r.masks_eq_map hwf, List.length_map]
  rw [numberComponents_eq hsize, (systemTables_eq_ok r.tables_eq).1]
  refine List.ext_getElem (by simp [hlen]) fun i h₁ _ => ?_
  simp only [List.getElem_map, List.getElem_range]
  have hget := List.getElem?_eq_getElem (l := cellLayout r.cell p (blocksOf r.bases))
    (by simpa using h₁)
  exact (r.componentEntry_masks hwf hget).symm

/-- **A composite of well-formed stores is well formed.** -/
theorem wellFormed : E.WellFormed := by
  obtain ⟨hw, -, -⟩ := r.layout_wf
  obtain ⟨c, -, -, -, -, hcomp, -⟩ := DofLayout.wf_of_ofCounts? r.layout_eq
  have hface := r.dofsPerFace_eq hwf
  rw [r.layout_store] at hface
  have hle := r.sum_dofsPerFace_le hwf
  rw [Store.dofsPerCell, r.layout_store] at hle
  refine Store.wellFormed_of_assemble r.assemble_eq r.definition_check
    (r.definition_layout ▸ hw) ?_ ?_ ?_
  · rw [r.definition_layout, hface]
    exact r.sum_dofsPerFace_nonneg hwf
  · rw [r.definition_layout, hface]
    exact hle
  · rw [r.definition_layout, hcomp]
    exact r.components_table hwf

end CompositeRun

end FiniteElements.Element
