import FiniteElements.Proofs.Composite.Nesting.Data
import FiniteElements.Proofs.Composite.Nesting.Steps
import FiniteElements.Proofs.Element.FaceComponents
import FiniteElements.Proofs.Composite.InterfaceConstraints

/-!
# A nested composite is its flattening

Take a composite `I` of bases `S₁`, a multiplicity `m ≥ 1` and more bases `S₂`, all well formed
and with exact dof counts below `2^63`, and `I`'s constraint size multiplying to less than `2^63`.
Then the nested composite of `(I, m) :: S₂` is built exactly when the flat one of `S₁` repeated
`m` times, then `S₂`, is, and the two are one element (`Store.composite_flattens`): they differ
only in names and in the tables that place dofs and components in their own bases.

Both constructions take the same steps (`sameSteps_nested_flat`). Their layouts nest
(`Nests`): a copy of `I` lists `I`'s dofs where the flattening lists the dofs of `I`'s blocks,
and the blocks of `S₂` follow in both. What a copy of `I` answers at one of its dofs is what the
inner block dof answers, moved into `I` (`CompositeRun.restrictionIsAdditive_inner` and its
siblings); moved once more into the nested composite, it is what the flattening reads there.
Block-diagonal matrices read the same entries through the nesting (`blockEntry_nestDof`), so
the composed transfer matrices and constraints agree. The constraint rows and columns are read
at their listed block dofs only when the lists have the constraint size, which holds when the
bases count their dofs exactly.

The hypotheses on the counts cannot go. Beside the trilinear element, a base whose counts wrap
gives a composite whose constraint size multiplies to zero as a machine word, so it composes no
constraints. Nested beside a second trilinear element it is a base with face dofs and no
constraints, and the nested composite composes none and is built; the flattening finds
constraints at every base with face dofs and allocates a constraint matrix of `-2^63 + 5` rows,
which stops (`wrappedFace_nested_flat`).

## Main results

* `composeTransfer_eq_blockEntries`, `composeConstraints_eq_blockDiagonal`,
  `systemTables_map_eq`: the composing steps, read through their block-diagonal entries.
* `sameSteps_nested_flat`
* `Store.composite_flattens`
-/

namespace FiniteElements.Element

set_option autoImplicit false

open FiniteElements.Cell FiniteElements.Dense FiniteElements.Constraint FiniteElements.Numeric

/-! ### The composing steps through their entries -/

theorem composeTransfer_eq_blockEntries (kind : Transfer) (c : Hypercube) (cell : List BlockDof)
    (blocks : List Block) :
    composeTransfer kind c cell blocks =
      if !(blocks.all fun blk => blk.store.transferIsImplemented kind) then .ok [] else
      (List.range c.childrenPerCell).mapM fun (child : Nat) => do
        let ms ← blocks.mapM fun blk => blk.store.transferMatrix kind child
        let m ← liftMatrix (Matrix.zeros cell.length cell.length)
        return { m with entries := blockEntries cell cell ms cell.length cell.length } :=
  rfl

theorem composeConstraints_eq_blockDiagonal (fd : DofLayout) (blocks : List Block) :
    composeConstraints fd blocks =
      if wrapWord (fd.constraintsSize.1 * fd.constraintsSize.2) == 0 then .ok .empty
      else if blocks.any (fun blk =>
          blk.store.layout.dofsPerFace != 0 && !blk.store.constraintsAreImplemented) then .ok .empty
      else do
        let baseC ← blocks.mapM fun blk =>
          if blk.store.layout.dofsPerFace == 0 then pure Matrix.empty
          else blk.store.interfaceConstraints
        let C ← liftMatrix (Matrix.zeros fd.constraintsSize.1 fd.constraintsSize.2)
        return blockDiagonal C (decodeGroups (rowGroups fd.dim) blocks)
          (decodeGroups (columnGroups fd.dim) blocks) baseC :=
  rfl

/-- **Two tabulations give the same component table and face map** when their cell dofs read the
same component indices and, in a blocked composite, their face dofs the same cell dofs on every
face. -/
theorem systemTables_map_eq {c : Hypercube} {p : Packing} {bA bB : List Block}
    {cA cB fA fB : List BlockDof} {fd : DofLayout}
    (hcell : cA.map (fun bd =>
        shiftIndex (blockAt bA bd) ((blockAt bA bd).store.systemToComponentIndex bd.index)) =
      cB.map (fun bd =>
        shiftIndex (blockAt bB bd) ((blockAt bB bd).store.systemToComponentIndex bd.index)))
    (hface : p = .blocked → ∀ f < c.facesPerCell,
      fA.mapM (blockFaceCell bA · f) = fB.mapM (blockFaceCell bB · f)) :
    (systemTables c p bA cA fA fd).map (fun x => (x.1.systemToComponent, x.2)) =
      (systemTables c p bB cB fB fd).map (fun x => (x.1.systemToComponent, x.2)) := by
  cases p with
  | blocked =>
    have h0 := hface rfl 0 (Hypercube.facesPerCell_pos c)
    have htable : ((List.range c.facesPerCell).mapM fun f => fA.mapM (blockFaceCell bA · f)) =
        (List.range c.facesPerCell).mapM fun f => fB.mapM (blockFaceCell bB · f) :=
      mapM_congr fun f hf => hface rfl f (List.mem_range.1 hf)
    simp only [blockFaceCell] at h0 htable
    dsimp only [systemTables]
    rw [h0, htable]
    simp only [bind, Except.bind]
    -- the checks and the face map fail alike; what is kept of the tables agrees
    split
    · rfl
    · split
      · rfl
      · simp only [pure, Except.pure, Except.map, hcell]
  | interleaved | unknown _ =>
    simp only [systemTables, pure, Except.pure, bind, Except.bind, Except.map, hcell]

/-! ### Blocks read through their offsets -/

theorem shiftMask_congr {blk blk' : Block} (h : blk.compOffset = blk'.compOffset) (N : Nat) :
    shiftMask blk N = shiftMask blk' N := by
  funext mk
  simp only [shiftMask, h]

theorem shiftIndex_congr {blk blk' : Block} (h : blk.compOffset = blk'.compOffset) :
    shiftIndex blk = shiftIndex blk' := by
  funext ci
  cases ci <;> simp only [shiftIndex, h]

theorem blockConstraints_congr {blk blk' : Block} (h : blk.store = blk'.store) :
    blockConstraints blk = blockConstraints blk' := by
  simp only [blockConstraints, h]

namespace CompositeRun

variable {p : Packing} {specs : List (Option Store × Int)} {E : Store} (r : CompositeRun p specs E)
  (hwf : ∀ x ∈ r.bases, x.1.WellFormed)
  (hfit : ∀ blk ∈ blocksOf r.bases, blk.store.layout.cellPrefix r.cell 4 < 2 ^ 63)
  (hsize : E.layout.constraintsSize.1 * E.layout.constraintsSize.2 < 2 ^ 63)
include hwf hfit hsize

/-- A composite whose sizes fit a machine word knows its constraints exactly when none of its
blocks with face dofs lacks them. -/
theorem constraintsAreImplemented_iff_any :
    E.constraintsAreImplemented = true ↔ ¬(blocksOf r.bases).any (fun blk =>
      blk.store.layout.dofsPerFace != 0 && !blk.store.constraintsAreImplemented) = true := by
  rw [not_any_unimplemented, r.blocks_implemented_iff hwf,
    r.constraintsAreImplemented_iff_bases hwf hfit hsize]

/-- A composite lacks constraints on its face dofs exactly when one of its blocks does. -/
theorem unimplemented_eq_any :
    (E.layout.dofsPerFace != 0 && !E.constraintsAreImplemented) =
      (blocksOf r.bases).any fun blk =>
        blk.store.layout.dofsPerFace != 0 && !blk.store.constraintsAreImplemented := by
  have himpl := r.constraintsAreImplemented_iff_any hwf hfit hsize
  refine Bool.eq_iff_iff.2 ⟨fun h => ?_, fun h => ?_⟩
  · simp only [Bool.and_eq_true, Bool.not_eq_true'] at h
    by_contra hno
    rw [himpl.2 hno] at h
    exact Bool.noConfusion h.2
  · -- a block with face dofs and no constraints gives the composite face dofs
    have hnot : E.constraintsAreImplemented = false := by
      simpa using mt himpl.1 (not_not.2 h)
    obtain ⟨blk, hblk, hf⟩ := List.any_eq_true.1 h
    simp only [Bool.and_eq_true, bne_iff_ne, ne_eq] at hf
    have hE := r.dofsPerFace_ne_zero_of_mem hwf hblk hf.1
    simp [hE, hnot]

end CompositeRun

/-! ### The steps of a nested composite and of its flattening -/

section Steps

variable {p : Packing} {S₁ : List (Option Store × Int)} {I : Store} (rI : CompositeRun p S₁ I)
  (hwf : ∀ x ∈ rI.bases, x.1.WellFormed) {m : Nat} (hm : 0 < m) (S₂ : List (Store × Nat))

theorem cell_nested {c : Hypercube} (hc : Hypercube.ofDim? (leadDim ((I, m) :: S₂)) = .ok c) :
    c = rI.cell := by
  rw [leadDim_nested rI, rI.cell_eq] at hc
  exact (Except.ok.inj hc).symm

include hwf

/-- **A nested composite's dofs are additive as its flattening's.** -/
theorem additive_nested_flat :
    (cellLayout rI.cell p (blocksOf ((I, m) :: S₂))).mapM
        (fun bd => (blockAt (blocksOf ((I, m) :: S₂)) bd).store.restrictionIsAdditive bd.index) =
      (cellLayout rI.cell p (blocksOf ((List.replicate m rI.bases).flatten ++ S₂))).mapM
        (fun bd => (blockAt (blocksOf ((List.replicate m rI.bases).flatten ++ S₂))
          bd).store.restrictionIsAdditive bd.index) := by
  refine (nests_cellLayout rI hwf m S₂).mapM_eq (fun t ht i hi => ?_) fun j _ i => ?_
  · have hβ := (rI.mem_cellLayout hwf (getD_mem_of_lt default hi)).1
    simp only [blockAt]
    rw [store_nested_copy ht, store_flat_copy ht hβ, rI.restrictionIsAdditive_inner hi]
    rfl
  · simp only [blockAt, store_rest rI.bases j]

/-- **A nested composite's masks are its flattening's**: a copy of `I` moves the mask `I` gives a
dof, itself the inner block dof's moved into `I`, and two moves are one. -/
theorem masks_nested_flat :
    (cellLayout rI.cell p (blocksOf ((I, m) :: S₂))).mapM
        (blockMask (blocksOf ((I, m) :: S₂)) (summedComponents (blocksOf ((I, m) :: S₂)))) =
      (cellLayout rI.cell p (blocksOf ((List.replicate m rI.bases).flatten ++ S₂))).mapM
        (blockMask (blocksOf ((List.replicate m rI.bases).flatten ++ S₂))
          (summedComponents (blocksOf ((List.replicate m rI.bases).flatten ++ S₂)))) := by
  rw [summedComponents_nested_flat rI S₂]
  have hcomp := rI.sum_components_toNat hwf
  refine (nests_cellLayout rI hwf m S₂).mapM_eq (fun t ht i hi => ?_) fun j hj i => ?_
  · set bd := (cellLayout rI.cell p (blocksOf rI.bases)).getD i default
    obtain ⟨hβ, hk⟩ := rI.mem_cellLayout hwf (getD_mem_of_lt default hi)
    have hoff : ((blocksOf ((List.replicate m rI.bases).flatten ++ S₂)).getD
        (t * (blocksOf rI.bases).length + bd.block) default).compOffset =
        ((blocksOf ((I, m) :: S₂)).getD t default).compOffset +
          (blockAt (blocksOf rI.bases) bd).compOffset := by
      rw [compOffset_flat_copy hcomp ht hβ, compOffset_nested_copy ht]
      rfl
    simp only [blockMask, blockAt] at hk ⊢
    rw [store_nested_copy ht, rI.nonzeroComponents_inner hi hwf, store_flat_copy ht hβ,
      Store.nonzeroComponents_of_lt hk]
    exact congrArg Except.ok (shiftMask_shiftMask _ _ _ hoff (rI.compOffset_add_size_le hi hwf))
  · simp only [blockMask, blockAt, store_rest rI.bases j,
      shiftMask_congr (compOffset_rest hcomp hj)]

include hm in
/-- **A nested composite's transfer matrices are its flattening's**: `I` keeps them exactly when
its bases do, and a copy of `I` contributes `I`'s block-diagonal matrix, which is the flattening's
on the copy's blocks. -/
theorem transfer_nested_flat (kind : Transfer) :
    composeTransfer kind rI.cell (cellLayout rI.cell p (blocksOf ((I, m) :: S₂)))
        (blocksOf ((I, m) :: S₂)) =
      composeTransfer kind rI.cell
        (cellLayout rI.cell p (blocksOf ((List.replicate m rI.bases).flatten ++ S₂)))
        (blocksOf ((List.replicate m rI.bases).flatten ++ S₂)) := by
  have hN := nests_cellLayout rI hwf m S₂
  have hII : I.transferIsImplemented kind =
      (rI.bases.flatMap fun x => List.replicate x.2 x.1).all (·.transferIsImplemented kind) := by
    rw [← all_blocksOf]
    exact Bool.eq_iff_iff.2
      ((rI.transferIsImplemented_iff kind).trans (rI.all_blocks_iff kind).symm)
  have hall : (blocksOf ((I, m) :: S₂)).all (fun blk => blk.store.transferIsImplemented kind) =
      (blocksOf ((List.replicate m rI.bases).flatten ++ S₂)).all
        (fun blk => blk.store.transferIsImplemented kind) := by
    rw [all_blocksOf _ (·.transferIsImplemented kind),
      all_blocksOf _ (·.transferIsImplemented kind), flatMap_nested, flatMap_flat,
      all_replicate_append _ hm, all_flatten_replicate_append _ hm, hII]
  rw [composeTransfer_eq_blockEntries, composeTransfer_eq_blockEntries, hall]
  split
  · rfl
  rename_i hkept
  have himpl : I.transferIsImplemented kind = true := by
    rw [all_blocksOf _ (·.transferIsImplemented kind), flatMap_flat,
      all_flatten_replicate_append _ hm] at hkept
    simp only [Bool.not_and, Bool.or_eq_true, Bool.not_eq_true', not_or, Bool.not_eq_false] at hkept
    rw [hII]
    exact hkept.1
  refine mapM_congr fun child hchild => ?_
  obtain ⟨ms, hms, M, hM, hentry⟩ := rI.transferMatrix_inner himpl (List.mem_range.1 hchild)
  have hlen : ms.length = (blocksOf rI.bases).length := length_eq_of_mapM_eq_ok hms
  rw [mapM_blocksOf _ fun s => s.transferMatrix kind child] at hms ⊢
  rw [mapM_blocksOf _ fun s => s.transferMatrix kind child, flatMap_nested, flatMap_flat,
    mapM_replicate_append _ hM, mapM_flatten_replicate_append _ hms]
  cases hrest : (S₂.flatMap fun x => List.replicate x.2 x.1).mapM
      (fun s => s.transferMatrix kind child) with
  | error e => simp only [Except.map, bind, Except.bind]
  | ok ms₂ =>
    -- the bases of the two block-diagonal matrices: `m` copies of `I`'s, or of its blocks'
    have hO : ∀ t < m, (List.replicate m M ++ ms₂).getD t .empty = M :=
      fun t ht => getD_replicate_append _ _ _ ht
    have hF : ∀ t < m, ∀ β < (blocksOf rI.bases).length,
        ((List.replicate m ms).flatten ++ ms₂).getD (t * (blocksOf rI.bases).length + β) .empty =
          ms.getD β .empty := by
      intro t ht β hβ
      rw [← hlen]
      exact getD_flatten_replicate_append _ _ _ ht (by omega)
    have hK : ∀ j < (blocksOf S₂).length, (List.replicate m M ++ ms₂).getD (m + j) .empty =
        ((List.replicate m ms).flatten ++ ms₂).getD (m * (blocksOf rI.bases).length + j)
          .empty := by
      intro j _
      rw [getD_replicate_append_rest, ← hlen, getD_flatten_replicate_append_rest]
    have hLI : ∀ bd ∈ cellLayout rI.cell p (blocksOf rI.bases),
        bd.block < (blocksOf rI.bases).length :=
      fun bd h => (rI.mem_cellLayout hwf h).1
    have hentries := fun bi (hbi : bi ∈ cellLayout rI.cell p (blocksOf ((I, m) :: S₂)))
        bj (hbj : bj ∈ cellLayout rI.cell p (blocksOf ((I, m) :: S₂))) =>
      blockEntry_nestDof hN hN hLI hLI hO hentry hF hK hbi hbj
    -- the two allocations are of one size; what is allocated is left opaque
    rw [← hN.map_eq, List.length_map]
    generalize liftMatrix (Matrix.zeros _ _) = Z
    cases Z with
    | error e => rfl
    | ok Z =>
      simp only [Except.map, bind, Except.bind]
      rw [blockEntries_map rfl rfl hentries]

variable (hfit : ∀ blk ∈ blocksOf rI.bases, blk.store.layout.cellPrefix rI.cell 4 < 2 ^ 63)

include hm hfit in
/-- **A nested composite lists as many constraint rows as its flattening**: a copy of `I` lists the
rows of `I`'s blocks. -/
theorem rows_length_nested_flat :
    (decodeGroups (rowGroups (leadDim ((I, m) :: S₂))) (blocksOf ((I, m) :: S₂))).length =
      (decodeGroups (rowGroups (leadDim ((List.replicate m rI.bases).flatten ++ S₂)))
        (blocksOf ((List.replicate m rI.bases).flatten ++ S₂))).length := by
  rw [leadDim_flat rI S₂ hm, ← leadDim_nested rI S₂, leadDim_cons,
    ← (nests_decodeGroups rI hwf m S₂ hfit fun _ => objectDim_lt_of_mem_rowGroups).map_eq,
    List.length_map]

include hm hfit in
theorem columns_length_nested_flat :
    (decodeGroups (columnGroups (leadDim ((I, m) :: S₂))) (blocksOf ((I, m) :: S₂))).length =
      (decodeGroups (columnGroups (leadDim ((List.replicate m rI.bases).flatten ++ S₂)))
        (blocksOf ((List.replicate m rI.bases).flatten ++ S₂))).length := by
  rw [leadDim_flat rI S₂ hm, ← leadDim_nested rI S₂, leadDim_cons,
    ← (nests_decodeGroups rI hwf m S₂ hfit fun _ => objectDim_lt_of_mem_columnGroups).map_eq,
    List.length_map]

include hm hfit in
/-- **A nested composite's interface constraints are its flattening's**, on a constraint layout of
the nested composite's dimension whose rows and columns are as many as its constraint size says:
both skip them together, and a copy of `I` contributes `I`'s block-diagonal constraints. -/
theorem constraints_nested_flat
    (hsize : I.layout.constraintsSize.1 * I.layout.constraintsSize.2 < 2 ^ 63)
    {fd : DofLayout} (hdim : fd.dim = I.layout.dim)
    (hrows : (decodeGroups (rowGroups fd.dim) (blocksOf ((I, m) :: S₂))).length =
      fd.constraintsSize.1.toNat)
    (hcols : (decodeGroups (columnGroups fd.dim) (blocksOf ((I, m) :: S₂))).length =
      fd.constraintsSize.2.toNat) :
    composeConstraints fd (blocksOf ((I, m) :: S₂)) =
      composeConstraints fd (blocksOf ((List.replicate m rI.bases).flatten ++ S₂)) := by
  have hany : (blocksOf ((I, m) :: S₂)).any (fun blk =>
        blk.store.layout.dofsPerFace != 0 && !blk.store.constraintsAreImplemented) =
      (blocksOf ((List.replicate m rI.bases).flatten ++ S₂)).any (fun blk =>
        blk.store.layout.dofsPerFace != 0 && !blk.store.constraintsAreImplemented) := by
    rw [any_blocksOf _ fun s => s.layout.dofsPerFace != 0 && !s.constraintsAreImplemented,
      any_blocksOf _ fun s => s.layout.dofsPerFace != 0 && !s.constraintsAreImplemented,
      flatMap_nested, flatMap_flat, any_replicate_append _ hm, any_flatten_replicate_append _ hm,
      rI.unimplemented_eq_any hwf hfit hsize,
      any_blocksOf _ fun s => s.layout.dofsPerFace != 0 && !s.constraintsAreImplemented]
  rw [composeConstraints_eq_blockDiagonal, composeConstraints_eq_blockDiagonal, hany, hdim]
  rw [hdim] at hrows hcols
  split
  · rfl
  split
  · rfl
  rename_i hnone
  -- no block lacks its constraints, so neither does `I`, whose blocks are the flattening's
  have himpl : I.constraintsAreImplemented = true := by
    have hnoneI := hnone
    rw [any_blocksOf _ fun s => s.layout.dofsPerFace != 0 && !s.constraintsAreImplemented,
      flatMap_flat, any_flatten_replicate_append _ hm, ← any_blocksOf, Bool.or_eq_true,
      not_or] at hnoneI
    exact (rI.constraintsAreImplemented_iff_any hwf hfit hsize).2 hnoneI.1
  rw [mapM_blockConstraints (not_any_unimplemented.1 (hany ▸ hnone)),
    mapM_blockConstraints (not_any_unimplemented.1 hnone)]
  simp only [bind, Except.bind]
  cases hZ : liftMatrix (Matrix.zeros fd.constraintsSize.1 fd.constraintsSize.2) with
  | error e => rfl
  | ok Z =>
    obtain ⟨-, -, rfl⟩ := Matrix.zeros_eq_ok (mapError_eq_ok.1 hZ)
    -- the bases of the two block-diagonal matrices: `I`'s constraints, or its blocks'
    have hgroupsR : ∀ grp ∈ rowGroups I.layout.dim, (grp.objectDim : Int) < I.layout.dim :=
      fun _ => objectDim_lt_of_mem_rowGroups
    have hgroupsC : ∀ grp ∈ columnGroups I.layout.dim, (grp.objectDim : Int) < I.layout.dim :=
      fun _ => objectDim_lt_of_mem_columnGroups
    have hNR := nests_decodeGroups rI hwf m S₂ hfit hgroupsR
    have hNC := nests_decodeGroups rI hwf m S₂ hfit hgroupsC
    have hO : ∀ t < m, ((blocksOf ((I, m) :: S₂)).map blockConstraints).getD t .empty =
        blockConstraints ((blocksOf ((I, m) :: S₂)).getD 0 default) := by
      intro t ht
      rw [getD_map_of_lt (by rw [length_blocksOf_nested]; omega)]
      exact blockConstraints_congr ((store_nested_copy ht).trans (store_nested_copy hm).symm)
    have hF : ∀ t < m, ∀ β < (blocksOf rI.bases).length,
        ((blocksOf ((List.replicate m rI.bases).flatten ++ S₂)).map blockConstraints).getD
            (t * (blocksOf rI.bases).length + β) .empty =
          ((blocksOf rI.bases).map blockConstraints).getD β .empty := by
      intro t ht β hβ
      have hlt := mul_add_lt_mul ht hβ
      rw [getD_map_of_lt (by rw [length_blocksOf_flat]; omega), getD_map_of_lt hβ]
      exact blockConstraints_congr (store_flat_copy ht hβ)
    have hK : ∀ j < (blocksOf S₂).length,
        ((blocksOf ((I, m) :: S₂)).map blockConstraints).getD (m + j) .empty =
          ((blocksOf ((List.replicate m rI.bases).flatten ++ S₂)).map blockConstraints).getD
            (m * (blocksOf rI.bases).length + j) .empty := by
      intro j hj
      rw [getD_map_of_lt (by rw [length_blocksOf_nested]; omega),
        getD_map_of_lt (by rw [length_blocksOf_flat]; omega)]
      exact blockConstraints_congr (store_rest rI.bases j)
    have hentries := fun bi (hbi : bi ∈ decodeGroups (rowGroups I.layout.dim)
        (blocksOf ((I, m) :: S₂))) bj (hbj : bj ∈ decodeGroups (columnGroups I.layout.dim)
        (blocksOf ((I, m) :: S₂))) =>
      blockEntry_nestDof hNR hNC (fun _ => block_lt_of_mem_decodeGroups)
        (fun _ => block_lt_of_mem_decodeGroups) hO
        (rI.get_constraints_inner hwf hfit himpl (store_nested_copy hm)) hF hK hbi hbj
    simp only [pure, Except.pure]
    rw [blockDiagonal_eq_blockEntries, blockDiagonal_eq_blockEntries, ← hNR.map_eq, ← hNC.map_eq,
      blockEntries_map hrows hcols hentries]

/-- **A nested composite's component table and face map are its flattening's.** -/
theorem tables_nested_flat (fd : DofLayout) :
    (systemTables rI.cell p (blocksOf ((I, m) :: S₂))
        (cellLayout rI.cell p (blocksOf ((I, m) :: S₂)))
        (faceLayout rI.cell p (blocksOf ((I, m) :: S₂))) fd).map
        (fun x => (x.1.systemToComponent, x.2)) =
      (systemTables rI.cell p (blocksOf ((List.replicate m rI.bases).flatten ++ S₂))
        (cellLayout rI.cell p (blocksOf ((List.replicate m rI.bases).flatten ++ S₂)))
        (faceLayout rI.cell p (blocksOf ((List.replicate m rI.bases).flatten ++ S₂))) fd).map
        (fun x => (x.1.systemToComponent, x.2)) := by
  have hcomp := rI.sum_components_toNat hwf
  have hcell := rI.sum_dofsPerCell_toNat hwf
  refine systemTables_map_eq
    ((nests_cellLayout rI hwf m S₂).map_eq_map (fun t ht i hi => ?_) fun j hj i => ?_)
    fun hp f hf => (nests_faceLayout rI hwf m S₂).mapM_eq (fun t ht i hi => ?_) fun j hj i => ?_
  · -- the component index of a copy's dof, moved twice
    have hβ := (rI.mem_cellLayout hwf (getD_mem_of_lt default hi)).1
    simp only [blockAt]
    rw [store_nested_copy ht, store_flat_copy ht hβ]
    refine rI.shiftIndex_systemToComponentIndex_inner hi hwf _ _ ?_
    rw [compOffset_flat_copy hcomp ht hβ, compOffset_nested_copy ht]
    rfl
  · simp only [blockAt, store_rest rI.bases j, shiftIndex_congr (compOffset_rest hcomp hj)]
  · -- the cell dof of a copy's face dof: the inner block's, past the earlier blocks and copies
    have hβ := (rI.face_ordered hwf).block_lt _ (getD_mem_of_lt default hi)
    have hinner := rI.faceToCellIndex_inner hwf hp hi hf
    set bd := (faceLayout rI.cell p (blocksOf rI.bases)).getD i default
    simp only [blockFaceCell, blockAt] at hinner ⊢
    rw [store_nested_copy ht, hinner, store_flat_copy ht hβ, cellOffset_nested_copy ht,
      cellOffset_flat_copy hcell ht hβ]
    cases ((blocksOf rI.bases).getD bd.block default).store.faceToCellIndex bd.index f with
    | error e => rfl
    | ok k => simp only [bind, Except.bind, pure, Except.pure, Nat.add_assoc]
  · simp only [blockFaceCell, blockAt, store_rest rI.bases j, cellOffset_rest hcell hj]

include hm hfit in
/-- **A nested composite takes the steps of its flattening.** -/
theorem sameSteps_nested_flat
    (hsize : I.layout.constraintsSize.1 * I.layout.constraintsSize.2 < 2 ^ 63) :
    SameSteps p (asSpecs ((I, m) :: S₂)) (asSpecs ((List.replicate m rI.bases).flatten ++ S₂))
      ((I, m) :: S₂) ((List.replicate m rI.bases).flatten ++ S₂) where
  checkBases_iff := checkBases_nested_iff_flat rI S₂ hm
  leadDim_eq := (leadDim_nested rI S₂).trans (leadDim_flat rI S₂ hm).symm
  summedCounts_eq := summedCounts_nested_flat rI S₂ hm
  summedComponents_eq := summedComponents_nested_flat rI S₂
  maxDegree_eq := maxDegree_nested_flat rI S₂ hm
  additive_eq c hc := by
    obtain rfl := cell_nested rI S₂ hc
    exact additive_nested_flat rI hwf S₂
  masks_eq c hc := by
    obtain rfl := cell_nested rI S₂ hc
    exact masks_nested_flat rI hwf S₂
  transfer_eq c hc kind := by
    obtain rfl := cell_nested rI S₂ hc
    exact transfer_nested_flat rI hwf hm S₂ kind
  rows_length_eq := rows_length_nested_flat rI hwf hm S₂ hfit
  columns_length_eq := columns_length_nested_flat rI hwf hm S₂ hfit
  constraints_eq fd hfd hrows hcols := by
    obtain ⟨c, -, hdim, -⟩ := DofLayout.wf_of_ofCounts? hfd
    rw [← hdim] at hrows hcols
    exact constraints_nested_flat rI hwf hm S₂ hfit hsize hdim hrows hcols
  tables_eq c fd hc _ := by
    obtain rfl := cell_nested rI S₂ hc
    exact tables_nested_flat rI hwf S₂ fd

end Steps

/-! ### Nested composites are flat -/

/-- **A composite of well-formed bases with exact dof counts that takes the same steps as another
is built with it, and is the same element**: such bases list as many constraint rows and columns
as the constraint size says. -/
theorem SameSteps.composite_sameElement {p : Packing} {bA bB : List (Store × Nat)} {EA : Store}
    (h : SameSteps p (asSpecs bA) (asSpecs bB) bA bB)
    (hA : Store.composite p (asSpecs bA) = .ok EA) (hwf : ∀ x ∈ bA, x.1.WellFormed)
    (hfit : ∀ x ∈ bA, x.1.layout.cellPrefix x.1.cell 4 < 2 ^ 63) :
    ∃ EB, Store.composite p (asSpecs bB) = .ok EB ∧ EA.SameElement EB := by
  obtain ⟨r⟩ := Store.composite_eq_ok hA
  have hb : bA = r.bases := asSpecs_injective (checkBases_eq_ok r.checkBases_eq).1
  have h' : SameSteps p (asSpecs bA) (asSpecs bB) r.bases bB := by
    rw [← hb]
    exact h
  have hwf' : ∀ x ∈ r.bases, x.1.WellFormed := fun x hx => hwf x (hb ▸ hx)
  have hfit' := r.fit_blocks hwf' fun x hx => hfit x (hb ▸ hx)
  refine r.transport h' ?_ ?_
  · rw [← r.dim_eq_leadDim, ← r.layout_store]
    exact r.length_rows hwf' hfit'
  · rw [← r.dim_eq_leadDim, ← r.layout_store]
    exact r.length_columns hwf' hfit'

/-- **A nested composite is its flattening.** Take a composite `I` of bases `S₁`, `m ≥ 1` copies
of it, and bases `S₂`, all well formed and counting fewer than `2^63` dofs exactly, with `I`'s
constraint size multiplying to less than `2^63`. The composite of `I` `m` times and then `S₂` is
built exactly when the composite of `S₁` repeated `m` times and then `S₂` is, and then the two are
the same element. -/
theorem Store.composite_flattens {p : Packing} {S₁ S₂ : List (Store × Nat)} {I : Store} {m : Nat}
    (hI : Store.composite p (asSpecs S₁) = .ok I) (hm : 0 < m)
    (hwf : ∀ x ∈ S₁ ++ S₂, x.1.WellFormed)
    (hfit : ∀ x ∈ S₁ ++ S₂, x.1.layout.cellPrefix x.1.cell 4 < 2 ^ 63)
    (hsize : I.layout.constraintsSize.1 * I.layout.constraintsSize.2 < 2 ^ 63) :
    ((∃ EO, Store.composite p (asSpecs ((I, m) :: S₂)) = .ok EO) ↔
        ∃ EF, Store.composite p (asSpecs ((List.replicate m S₁).flatten ++ S₂)) = .ok EF) ∧
      ∀ EO EF, Store.composite p (asSpecs ((I, m) :: S₂)) = .ok EO →
        Store.composite p (asSpecs ((List.replicate m S₁).flatten ++ S₂)) = .ok EF →
        EO.SameElement EF := by
  obtain ⟨rI⟩ := Store.composite_eq_ok hI
  have hb : S₁ = rI.bases := asSpecs_injective (checkBases_eq_ok rI.checkBases_eq).1
  have hwf₁ : ∀ x ∈ rI.bases, x.1.WellFormed :=
    fun x hx => hwf x (List.mem_append_left _ (hb ▸ hx))
  have hfit₁ := rI.fit_blocks hwf₁ fun x hx => hfit x (List.mem_append_left _ (hb ▸ hx))
  have hsteps := sameSteps_nested_flat rI hwf₁ hm S₂ hfit₁ hsize
  -- `I` is well formed and counts its dofs exactly, as its bases do
  have hwfO : ∀ x ∈ (I, m) :: S₂, x.1.WellFormed :=
    List.forall_mem_cons.2 ⟨rI.wellFormed hwf₁, fun x hx => hwf x (List.mem_append_right _ hx)⟩
  have hfitO : ∀ x ∈ (I, m) :: S₂, x.1.layout.cellPrefix x.1.cell 4 < 2 ^ 63 := by
    refine List.forall_mem_cons.2 ⟨?_, fun x hx => hfit x (List.mem_append_right _ hx)⟩
    rw [rI.cell_store, rI.layout_store]
    exact rI.layout_cellPrefix_lt_of_sum hwf₁ (rI.sum_cellPrefix_of_fit hwf₁ hfit₁)
  have hmemF : ∀ x ∈ (List.replicate m rI.bases).flatten ++ S₂, x ∈ S₁ ++ S₂ := by
    intro x hx
    rcases List.mem_append.1 hx with hx | hx
    · exact List.mem_append_left _ (hb ▸ mem_of_mem_flatten_replicate hx)
    · exact List.mem_append_right _ hx
  rw [hb]
  refine ⟨⟨fun ⟨EO, hEO⟩ => ?_, fun ⟨EF, hEF⟩ => ?_⟩, fun EO EF hEO hEF => ?_⟩
  · obtain ⟨EF, hEF, -⟩ := hsteps.composite_sameElement hEO hwfO hfitO
    exact ⟨EF, hEF⟩
  · obtain ⟨EO, hEO, -⟩ := hsteps.symm.composite_sameElement hEF (fun x hx => hwf x (hmemF x hx))
      fun x hx => hfit x (hmemF x hx)
    exact ⟨EO, hEO⟩
  · obtain ⟨EF', hEF', hsame⟩ := hsteps.composite_sameElement hEO hwfO hfitO
    obtain rfl := Except.ok.inj (hEF.symm.trans hEF')
    exact hsame

/-- Two copies of the blocked pair of linear segments and one more segment: the nested composite
is built, and is the flat composite of five segments. -/
theorem linearSegmentPair_flattens :
    Store.composite .blocked (asSpecs [(Store.linearSegment, 2)]) = .ok linearSegmentPair ∧
      0 < 2 ∧
      (∀ x ∈ [(Store.linearSegment, 2)] ++ [(Store.linearSegment, 1)], x.1.WellFormed) ∧
      (∀ x ∈ [(Store.linearSegment, 2)] ++ [(Store.linearSegment, 1)],
        x.1.layout.cellPrefix x.1.cell 4 < 2 ^ 63) ∧
      linearSegmentPair.layout.constraintsSize.1 * linearSegmentPair.layout.constraintsSize.2 <
        2 ^ 63 ∧
      ((∃ EO, Store.composite .blocked
            (asSpecs [(linearSegmentPair, 2), (Store.linearSegment, 1)]) = .ok EO) ↔
          ∃ EF, Store.composite .blocked
            (asSpecs ((List.replicate 2 [(Store.linearSegment, 2)]).flatten ++
              [(Store.linearSegment, 1)])) = .ok EF) ∧
      ∀ EO EF, Store.composite .blocked
          (asSpecs [(linearSegmentPair, 2), (Store.linearSegment, 1)]) = .ok EO →
        Store.composite .blocked (asSpecs ((List.replicate 2 [(Store.linearSegment, 2)]).flatten ++
          [(Store.linearSegment, 1)])) = .ok EF →
        EO.SameElement EF := by
  have hwf : ∀ x ∈ [(Store.linearSegment, 2)] ++ [(Store.linearSegment, 1)], x.1.WellFormed := by
    intro x hx
    simp only [List.cons_append, List.nil_append, List.mem_cons, List.not_mem_nil, or_false] at hx
    rcases hx with rfl | rfl <;> exact Store.linearSegment_built.wellFormed
  have hfit : ∀ x ∈ [(Store.linearSegment, 2)] ++ [(Store.linearSegment, 1)],
      x.1.layout.cellPrefix x.1.cell 4 < 2 ^ 63 := by decide
  have hsize : linearSegmentPair.layout.constraintsSize.1 *
      linearSegmentPair.layout.constraintsSize.2 < 2 ^ 63 := by decide
  exact ⟨linearSegmentPair_eq, by decide, hwf, hfit, hsize,
    Store.composite_flattens linearSegmentPair_eq (by decide) hwf hfit hsize⟩

/-! ### Counts that wrap -/

set_option maxRecDepth 100000 in
/-- **Nesting builds what flattening refuses.** The blocked composite of the wrapped element and the
trilinear element composes no constraints, its constraint size multiplying to zero as a machine
word. Nested beside a second trilinear element it is built, and composes no constraints either;
the flat composite of the same three bases, all of them built, stops on the negative row count of
its constraint matrix. -/
theorem wrappedFace_nested_flat :
    (∀ x ∈ [(wrappedFace, 1), (trilinear, 1)] ++ [(trilinear, 1)], x.1.Built) ∧
      Store.composite .blocked (asSpecs [(wrappedFace, 1), (trilinear, 1)]) =
        .ok wrappedFaceSystem ∧
      (∃ EO, Store.composite .blocked (asSpecs [(wrappedFaceSystem, 1), (trilinear, 1)]) = .ok EO) ∧
      Store.composite .blocked (asSpecs ((List.replicate 1 [(wrappedFace, 1), (trilinear, 1)]).flatten ++
          [(trilinear, 1)])) = .error (.aborted (.matrix .negativeDimension)) := by
  refine ⟨?_, eq_ok_okValue (by decide), ⟨_, eq_ok_okValue (by decide)⟩, rfl⟩
  simp only [List.cons_append, List.nil_append, List.mem_cons, List.not_mem_nil, or_false,
    forall_eq_or_imp, forall_eq]
  exact ⟨wrappedFace_built, trilinear_built, trilinear_built⟩

end FiniteElements.Element
