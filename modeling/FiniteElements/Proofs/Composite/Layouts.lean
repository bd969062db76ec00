import FiniteElements.Proofs.Composite.Run

/-!
# The cell and face dofs of a composite, in their blocks

A blocked composite lists the dofs of its blocks block by block (`cellLayout_blocked`,
`faceLayout_blocked`). An interleaved composite lists them kind by kind and object by object,
and on each object the dofs of every block in block order (`interleavedDofs`):

* it lists `objs k · Σ_β n_β k` dofs of kind `k`, with `n_β k` the dofs of block `β` on one object
  of kind `k` (`length_interleavedDofs`);
* the dofs of one block come in that block's own order, object kind by object kind, so they run
  through `0, 1, …` whenever the block numbers its dofs kind by kind from the exact offsets
  (`filter_interleavedDofs`);
* dof `d` of block `β` on object `o` of kind `κ` comes after all dofs of the earlier kinds, of the
  earlier objects of kind `κ` and of the earlier blocks on object `o`
  (`getElem?_interleavedDofs`).
-/

namespace FiniteElements.Element

set_option autoImplicit false

open FiniteElements.Cell

section Blocked

variable (c : Hypercube) (blocks : List Block)

theorem cellLayout_blocked : cellLayout c .blocked blocks =
    blockwise blocks.length fun β => (blocks.getD β default).store.dofsPerCell.toNat := by
  simp only [cellLayout, blockwise]
  rw [zipIdx_flatMap]

theorem faceLayout_blocked : faceLayout c .blocked blocks =
    blockwise blocks.length fun β => (blocks.getD β default).store.layout.dofsPerFace.toNat := by
  simp only [faceLayout, blockwise]
  rw [zipIdx_flatMap]

end Blocked

/-- Summing the dofs of blocks kind by kind sums the blocks' own kind-by-kind totals. -/
theorem objectOffset_sum (objs : Nat → Nat) (n : Block → Nat → Nat) (blocks : List Block)
    (top : Nat) :
    objectOffset objs (fun k => (blocks.map fun blk => n blk k).sum) top =
      (blocks.map fun blk => objectOffset objs (n blk) top).sum := by
  induction top with
  | zero => simp [objectOffset]
  | succ top ih =>
    simp only [objectOffset_succ, ih, List.sum_map_add, List.sum_map_mul_left]

section Interleaved

variable (blocks : List Block) (objects : List Nat) (top : Nat) (first : DofLayout → Nat → Int)

/-- The dofs of block `β` on one object of kind `k`. -/
abbrev kindCount (β k : Nat) : Nat := ((blocks.getD β default).store.layout.countOf k).toNat

/-- The dofs of all blocks on one object of kind `k`. -/
abbrev kindTotal (k : Nat) : Nat := (blocks.map fun blk => (blk.store.layout.countOf k).toNat).sum

private theorem interleavedDofs_eq :
    interleavedDofs blocks objects top first =
      (List.range top).flatMap fun k => (List.range (objects.getD k 0)).flatMap fun (o : Nat) =>
        (List.range blocks.length).flatMap fun β =>
          (List.range (kindCount blocks β k)).map fun (d : Nat) =>
            (⟨β, (first (blocks.getD β default).store.layout k +
              o * (blocks.getD β default).store.layout.countOf k + d).toNat⟩ : BlockDof) := by
  simp only [interleavedDofs, zipIdx_flatMap]

private theorem length_objectDofs (k o : Nat) :
    ((List.range blocks.length).flatMap fun β =>
      (List.range (kindCount blocks β k)).map fun (d : Nat) =>
        (⟨β, (first (blocks.getD β default).store.layout k +
          o * (blocks.getD β default).store.layout.countOf k + d).toNat⟩ : BlockDof)).length =
      kindTotal blocks k := by
  simp only [List.length_flatMap, List.length_map, List.length_range, kindTotal, kindCount]
  rw [map_range_getD blocks fun blk => (blk.store.layout.countOf k).toNat]

private theorem length_kindDofs (k : Nat) :
    ((List.range (objects.getD k 0)).flatMap fun (o : Nat) =>
      (List.range blocks.length).flatMap fun β =>
        (List.range (kindCount blocks β k)).map fun (d : Nat) =>
          (⟨β, (first (blocks.getD β default).store.layout k +
            o * (blocks.getD β default).store.layout.countOf k + d).toNat⟩ : BlockDof)).length =
      objects.getD k 0 * kindTotal blocks k := by
  rw [List.length_flatMap]
  simp only [length_objectDofs, List.map_const', List.length_range, List.sum_replicate_nat]

theorem length_interleavedDofs :
    (interleavedDofs blocks objects top first).length =
      objectOffset (objects.getD · 0) (kindTotal blocks) top := by
  rw [interleavedDofs_eq, List.length_flatMap, objectOffset]
  simp only [length_kindDofs]

variable {blocks objects top first}

theorem block_lt_of_mem_interleavedDofs {bd : BlockDof}
    (h : bd ∈ interleavedDofs blocks objects top first) : bd.block < blocks.length := by
  rw [interleavedDofs_eq] at h
  simp only [List.mem_flatMap, List.mem_range, List.mem_map] at h
  obtain ⟨-, -, -, -, β, hβ, -, -, rfl⟩ := h
  exact hβ

/-- **One block's dofs in an interleaved composite.** They come in the block's own order, object
kind by object kind and object by object. -/
theorem filter_interleavedDofs {β : Nat} (hβ : β < blocks.length) :
    (interleavedDofs blocks objects top first).filter (·.block == β) =
      (List.range top).flatMap fun k => (List.range (objects.getD k 0)).flatMap fun (o : Nat) =>
        (List.range (kindCount blocks β k)).map fun (d : Nat) =>
          (⟨β, (first (blocks.getD β default).store.layout k +
            o * (blocks.getD β default).store.layout.countOf k + d).toNat⟩ : BlockDof) := by
  rw [interleavedDofs_eq]
  simp only [List.filter_flatMap, filter_flatMap_mk _ _ hβ]

/-- A block numbered kind by kind from the exact offsets has its dofs in an interleaved
composite in increasing order, `0, 1, …` up to its dof count. -/
theorem index_filter_interleavedDofs {β : Nat} (hβ : β < blocks.length)
    (hcount : ∀ k, 0 ≤ (blocks.getD β default).store.layout.countOf k)
    (hfirst : ∀ k < top, first (blocks.getD β default).store.layout k =
      objectOffset (objects.getD · 0) (kindCount blocks β) k) :
    ((interleavedDofs blocks objects top first).filter (·.block == β)).map (·.index) =
      List.range (objectOffset (objects.getD · 0) (kindCount blocks β) top) := by
  rw [filter_interleavedDofs hβ, ← objectwise_eq_range]
  simp only [List.map_flatMap, List.map_map]
  refine List.flatMap_congr fun k hk => List.flatMap_congr fun o _ => List.map_congr_left fun d _ => ?_
  have hc : (((blocks.getD β default).store.layout.countOf k).toNat : Int) =
      (blocks.getD β default).store.layout.countOf k := Int.toNat_of_nonneg (hcount k)
  simp only [Function.comp_apply, hfirst k (List.mem_range.1 hk), kindCount]
  rw [← hc]
  norm_cast

/-- **Where a block dof sits in an interleaved composite.** Dof `d` of block `β` on object `o` of
kind `κ` comes after the dofs of the kinds before `κ`, of the objects of kind `κ` before `o`, and
of the blocks before `β` on object `o`. -/
theorem getElem?_interleavedDofs {κ o β d : Nat} (hκ : κ < top) (ho : o < objects.getD κ 0)
    (hβ : β < blocks.length) (hd : d < kindCount blocks β κ) :
    (interleavedDofs blocks objects top first)[objectOffset (objects.getD · 0) (kindTotal blocks) κ +
        o * kindTotal blocks κ + ((List.range β).map (kindCount blocks · κ)).sum + d]? =
      some ⟨β, (first (blocks.getD β default).store.layout κ +
        o * (blocks.getD β default).store.layout.countOf κ + d).toNat⟩ := by
  have htotal : kindTotal blocks κ = ((List.range blocks.length).map (kindCount blocks · κ)).sum := by
    simp only [kindTotal, kindCount]
    rw [map_range_getD blocks fun blk => (blk.store.layout.countOf κ).toNat]
  -- within object `o`: the blocks before `β`, then `d`
  have hr : ((List.range β).map (kindCount blocks · κ)).sum + d < kindTotal blocks κ := by
    have := sum_range_add_le (n := (kindCount blocks · κ)) hβ
    omega
  rw [interleavedDofs_eq, objectOffset, Nat.add_assoc, Nat.add_assoc,
    getElem?_flatMap_range_of_length (n := fun k => objects.getD k 0 * kindTotal blocks k)
      (length_kindDofs blocks objects first) hκ (mul_add_lt_mul ho hr),
    show o * kindTotal blocks κ = ((List.range o).map fun _ => kindTotal blocks κ).sum by
      simp [List.map_const'],
    getElem?_flatMap_range_of_length (n := fun _ => kindTotal blocks κ)
      (fun o => length_objectDofs blocks first κ o) ho hr,
    getElem?_flatMap_range_of_length (n := (kindCount blocks · κ)) (fun b => by simp) hβ hd]
  simp [List.getElem?_range hd]

end Interleaved

end FiniteElements.Element
