import FiniteElements.Proofs.Composite.Nesting.Entries

/-!
# A composite read at a dof of its layouts

What a composite answers for one of its dofs is what the block dof its layouts list there answers,
moved into the composite: this is how a copy of a composite reads inside another one. For a dof
`i` of a composite's cell layout, listing block dof `bd` there,

* it is additive as `bd` is (`restrictionIsAdditive_inner`), and its mask is `bd`'s moved to the
  block's components (`nonzeroComponents_inner`);
* its component index, moved once more, is `bd`'s moved by both offsets
  (`shiftIndex_systemToComponentIndex_inner`);
* in a blocked composite, face dof `i` on a face is the cell dof `bd`'s block puts there, moved
  past the earlier blocks (`faceToCellIndex_inner`);
* its transfer matrices are the block-diagonal matrices of the blocks' (`transferMatrix_inner`),
  and so are its interface constraints (`get_constraints_inner`), entry by entry.

The constraints are read only where the rows and columns of the constraint layout are as many
as the constraint size says (`length_rows`, `length_columns`), which holds once the blocks count
their dofs exactly on the composite's cell (`fit_blocks`).

## Main results

* `FiniteElements.Element.CompositeRun.restrictionIsAdditive_inner`,
  `FiniteElements.Element.CompositeRun.nonzeroComponents_inner`,
  `FiniteElements.Element.CompositeRun.shiftIndex_systemToComponentIndex_inner`,
  `FiniteElements.Element.CompositeRun.faceToCellIndex_inner`
* `FiniteElements.Element.CompositeRun.transferMatrix_inner`,
  `FiniteElements.Element.CompositeRun.length_rows`,
  `FiniteElements.Element.CompositeRun.length_columns`,
  `FiniteElements.Element.CompositeRun.get_constraints_inner`
-/

namespace FiniteElements.Dense.Matrix

/-- Two matrices with storage, one shape and the same entries read alike in range. -/
theorem get_eq_of_entry_eq {M N : Matrix} (hM : M.isEmpty = false)
    (hN : N.isEmpty = false) (hrows : N.rows = M.rows) (hcols : N.cols = M.cols)
    (hentry : N.entry = M.entry) {i j : Nat} (hi : i < M.rows) (hj : j < M.cols) :
    N.get i j = M.get i j := by
  have h := congrFun (congrFun hentry i) j
  rw [entry_of_lt hN (by omega) (by omega), entry_of_lt hM hi hj] at h
  exact Except.ok.inj h

end FiniteElements.Dense.Matrix

namespace FiniteElements.Element

set_option autoImplicit false

open FiniteElements.Cell FiniteElements.Dense FiniteElements.Constraint

namespace CompositeRun

variable {p : Packing} {specs : List (Option Store × Int)} {E : Store}
  (r : CompositeRun p specs E)

/-! ### Cell dofs -/

section Cell

variable {i : Nat} (hi : i < (cellLayout r.cell p (blocksOf r.bases)).length)
include hi

theorem dofsPerCell_of_lt_length : (i : Int) < E.dofsPerCell := by
  have := r.length_cellLayout
  omega

/-- **A composite dof is additive as its block dof is.** -/
theorem restrictionIsAdditive_inner :
    E.restrictionIsAdditive i =
      (blockAt (blocksOf r.bases)
          ((cellLayout r.cell p (blocksOf r.bases)).getD i default)).store.restrictionIsAdditive
        ((cellLayout r.cell p (blocksOf r.bases)).getD i default).index := by
  have hlen := length_eq_of_mapM_eq_ok r.additive_eq
  rw [Store.restrictionIsAdditive_of_lt (r.dofsPerCell_of_lt_length hi), r.additive_store,
    List.getD_eq_getElem _ _ (by omega), List.getD_eq_getElem _ _ hi,
    getElem_of_mapM_eq_ok r.additive_eq hi (by omega)]

variable (hwf : ∀ x ∈ r.bases, x.1.WellFormed)
include hwf

/-- **The mask of a composite dof** is its block dof's, moved to the block's components. -/
theorem nonzeroComponents_inner :
    E.nonzeroComponents i = .ok (shiftMask
      (blockAt (blocksOf r.bases) ((cellLayout r.cell p (blocksOf r.bases)).getD i default))
      (summedComponents (blocksOf r.bases)).toNat
      (blockDofMask (blocksOf r.bases)
        ((cellLayout r.cell p (blocksOf r.bases)).getD i default))) := by
  rw [Store.nonzeroComponents_of_lt (r.dofsPerCell_of_lt_length hi), r.masks_store,
    r.masks_eq_map hwf, getD_map_of_lt hi]

/-- The mask of a composite dof's block dof, moved to its block's components, ends within the
composite's components. -/
theorem compOffset_add_size_le :
    (blockAt (blocksOf r.bases)
          ((cellLayout r.cell p (blocksOf r.bases)).getD i default)).compOffset +
        (blockDofMask (blocksOf r.bases)
          ((cellLayout r.cell p (blocksOf r.bases)).getD i default)).size ≤
      (summedComponents (blocksOf r.bases)).toNat := by
  have hmem := getD_mem_of_lt default hi
  rw [r.size_blockDofMask hwf hmem]
  exact r.compOffset_add_le hwf (r.mem_cellLayout hwf hmem).1

/-- **The component index of a composite dof, moved by an offset**, is its block dof's moved by
that offset and the block's. Both are invalid together: the composite's mask is the block dof's
moved, so one is primitive exactly when the other is. -/
theorem shiftIndex_systemToComponentIndex_inner (blk blk' : Block)
    (hoff : blk'.compOffset = blk.compOffset +
      (blockAt (blocksOf r.bases)
        ((cellLayout r.cell p (blocksOf r.bases)).getD i default)).compOffset) :
    shiftIndex blk (E.systemToComponentIndex i) =
      shiftIndex blk' ((blockAt (blocksOf r.bases)
          ((cellLayout r.cell p (blocksOf r.bases)).getD i default)).store.systemToComponentIndex
        ((cellLayout r.cell p (blocksOf r.bases)).getD i default).index) := by
  set bd := (cellLayout r.cell p (blocksOf r.bases)).getD i default with hbd
  have hmem : bd ∈ cellLayout r.cell p (blocksOf r.bases) := getD_mem_of_lt default hi
  obtain ⟨-, hk⟩ := r.mem_cellLayout hwf hmem
  -- the composite's mask is the block dof's moved, with as many selected components
  have hbound := r.compOffset_add_size_le hi hwf
  have hmask : E.masks.getD i default = shiftMask (blockAt (blocksOf r.bases) bd)
      (summedComponents (blocksOf r.bases)).toNat (blockDofMask (blocksOf r.bases) bd) := by
    rw [r.masks_store, r.masks_eq_map hwf, getD_map_of_lt hi]
  have hcount := count_shiftMask (blockAt (blocksOf r.bases) bd) hbound
  have htable : E.tables.systemToComponent.getD i .invalid =
      shiftIndex (blockAt (blocksOf r.bases) bd)
        ((blockAt (blocksOf r.bases) bd).store.systemToComponentIndex bd.index) := by
    rw [r.tables_store, (systemTables_eq_ok r.tables_eq).1, getD_map_of_lt hi]
  rw [Store.systemToComponentIndex_of_lt (r.dofsPerCell_of_lt_length hi), hmask, hcount]
  by_cases h1 : (blockDofMask (blocksOf r.bases) bd).count = 1
  · -- primitive: the block's index, moved by the block's offset and then by `blk`'s
    have h1' : ((blockAt (blocksOf r.bases) bd).store.masks.getD bd.index default).count = 1 := h1
    rw [if_pos h1, htable, Store.systemToComponentIndex_of_lt hk, if_pos h1']
    simp only [shiftIndex, hoff]
    push_cast
    rw [Int.add_assoc]
  · have h1' : ¬((blockAt (blocksOf r.bases) bd).store.masks.getD bd.index default).count = 1 := h1
    rw [if_neg h1, Store.systemToComponentIndex_of_lt hk, if_neg h1']
    rfl

end Cell

/-! ### Transfer matrices -/

/-- **The transfer matrix of a composite for a child**, when it keeps some of the kind, is read
entry by entry as the block-diagonal matrix of the matrices its blocks hand out for the child. -/
theorem transferMatrix_inner {kind : Transfer} (himpl : E.transferIsImplemented kind = true)
    {child : Nat} (hc : child < r.cell.childrenPerCell) :
    ∃ ms, (blocksOf r.bases).mapM (fun blk => blk.store.transferMatrix kind child) = .ok ms ∧
      ∃ M, E.transferMatrix kind child = .ok M ∧
        ∀ i < (cellLayout r.cell p (blocksOf r.bases)).length,
        ∀ j < (cellLayout r.cell p (blocksOf r.bases)).length,
          M.get i j = blockEntry ms ((cellLayout r.cell p (blocksOf r.bases)).getD i default)
            ((cellLayout r.cell p (blocksOf r.bases)).getD j default) := by
  have hall := (r.all_blocks_iff kind).2 ((r.transferIsImplemented_iff kind).1 himpl)
  obtain ⟨-, hn, hlen, hchild⟩ :=
    (composeTransfer_eq_ok (r.composeTransfer_eq kind)).resolve_left (by simp [hall])
  obtain ⟨ms, hms, hD⟩ := hchild child hc
  -- the composite keeps its composed matrix of the child with its shape and entries
  rcases storeTransfer_eq_ok (r.storeTransfer_store kind) with ⟨hnil, -⟩ | ⟨-, hkept⟩
  · rw [Store.transferIsImplemented_eq, hnil] at himpl
    simp at himpl
  have hcD : child < (r.definition.transfers kind).length := by omega
  obtain ⟨hne, -, -, hrows', hcols', hentry⟩ :=
    (List.forall₂_iff_get.1 hkept).2 child hcD (by rw [← hkept.length_eq]; exact hcD)
  simp only [List.get_eq_getElem, ← List.getD_eq_getElem _ Matrix.empty] at hne hrows' hcols' hentry
  rw [hD] at hne hrows' hcols' hentry
  refine ⟨ms, hms, _, Store.transferMatrix_of_lt (by rw [r.cell_store]; exact hc) himpl,
    fun i hi j hj => ?_⟩
  have hN : ((E.transfers kind).getD child .empty).isEmpty = false := by
    unfold Matrix.isEmpty at hne ⊢
    rw [hrows', hcols']
    exact hne
  rw [Matrix.readOnlyCopy_get, Matrix.get_eq_of_entry_eq hne hN hrows' hcols' hentry hi hj,
    List.getD_eq_getElem _ _ hi, List.getD_eq_getElem _ _ hj,
    get_blockDiagonal hi hj (List.getElem?_eq_getElem hi) (List.getElem?_eq_getElem hj)]
  simp only [blockEntry, beq_iff_eq]

/-! ### Face dofs of a blocked composite -/

variable (hwf : ∀ x ∈ r.bases, x.1.WellFormed)
include hwf

/-- **A face dof of a blocked composite** is, on each face, the cell dof its block puts there,
moved past the earlier blocks. -/
theorem faceToCellIndex_inner (hp : p = .blocked) {i f : Nat}
    (hi : i < (faceLayout r.cell p (blocksOf r.bases)).length) (hf : f < r.cell.facesPerCell) :
    E.faceToCellIndex i f =
      blockFaceCell (blocksOf r.bases)
        ((faceLayout r.cell p (blocksOf r.bases)).getD i default) f := by
  have hlen : ((faceLayout r.cell p (blocksOf r.bases)).length : Int) = E.layout.dofsPerFace := by
    rw [(r.face_ordered hwf).length, map_range_blockFaces, r.dofsPerFace_eq hwf]
    exact natCast_sum_toNat (f := fun blk : Block => blk.store.layout.dofsPerFace) _
      fun blk hblk => (r.mem_wellFormed hwf hblk).1.face_nonneg
  exact r.faceToCellIndex_blocked hp hf (by omega)
    (by rw [List.getD_eq_getElem _ _ hi]; exact List.getElem?_eq_getElem hi)

/-! ### Interface constraints -/

/-- The blocks of bases whose dofs, counted exactly, fit a machine word fit one on the composite's
reference cell. -/
theorem fit_blocks (hfit : ∀ x ∈ r.bases, x.1.layout.cellPrefix x.1.cell 4 < 2 ^ 63) :
    ∀ blk ∈ blocksOf r.bases, blk.store.layout.cellPrefix r.cell 4 < 2 ^ 63 := by
  intro blk hblk
  obtain ⟨x, hx, hs⟩ := exists_of_mem_blocksOf hblk
  rw [← (r.mem_wellFormed hwf hblk).2, hs]
  exact hfit x hx

variable (hfit : ∀ blk ∈ blocksOf r.bases, blk.store.layout.cellPrefix r.cell 4 < 2 ^ 63)
include hfit

/-- **The rows of a composite's constraint layout are as many as its constraint size says**, when
its blocks count their dofs exactly. -/
theorem length_rows :
    (decodeGroups (rowGroups E.layout.dim) (blocksOf r.bases)).length =
      E.layout.constraintsSize.1.toNat := by
  have hw := r.layout_wf.1
  have hEfit := r.layout_cellPrefix_lt_of_sum hwf (r.sum_cellPrefix_of_fit hwf hfit)
  rw [← r.layout_store] at hw hEfit
  have hlen := r.length_decodeGroups_eq hwf hfit fun _ => objectDim_lt_of_mem_rowGroups
  rw [DofLayout.sum_rowGroups hw hEfit] at hlen
  omega

theorem length_columns :
    (decodeGroups (columnGroups E.layout.dim) (blocksOf r.bases)).length =
      E.layout.constraintsSize.2.toNat := by
  have hw := r.layout_wf.1
  have hEfit := r.layout_cellPrefix_lt_of_sum hwf (r.sum_cellPrefix_of_fit hwf hfit)
  rw [← r.layout_store] at hw hEfit
  have hlen := r.length_decodeGroups_eq hwf hfit fun _ => objectDim_lt_of_mem_columnGroups
  rw [DofLayout.sum_columnGroups hw hEfit] at hlen
  omega

/-- A composite with a row in its constraint layout has face dofs and at least two dimensions. -/
theorem dim_ne_one_of_lt_rows {i : Nat}
    (hi : i < (decodeGroups (rowGroups E.layout.dim) (blocksOf r.bases)).length) :
    E.layout.dim ≠ 1 ∧ E.layout.dofsPerFace ≠ 0 := by
  have hrowk : ∀ grp ∈ rowGroups E.layout.dim, (grp.objectDim : Int) < E.layout.dim :=
    fun _ => objectDim_lt_of_mem_rowGroups
  have hnn := r.blocks_objectCounts_nonneg hwf
  refine ⟨fun h1 => ?_, fun hf => ?_⟩
  · rw [h1] at hi
    simp [rowGroups, decodeGroups] at hi
  · rw [decodeGroups_eq_groupwise hnn] at hi
    obtain ⟨g, hg, β, hβ, d, hd, -⟩ := exists_of_lt_length_groupwise hi
    exact r.dofsPerFace_ne_zero_of_mem hwf (getD_mem_of_lt default hβ)
      (r.dofsPerFace_ne_zero_of_lt_groupCount hwf hfit hrowk hg hβ hd) hf

/-- **The interface constraints of a composite that knows them** are read, at a row and a column
of its constraint layout, as the block-diagonal matrix of its blocks' constraints. -/
theorem get_constraints_inner (himpl : E.constraintsAreImplemented = true) {blk : Block}
    (hblk : blk.store = E) :
    ∀ i < (decodeGroups (rowGroups E.layout.dim) (blocksOf r.bases)).length,
    ∀ j < (decodeGroups (columnGroups E.layout.dim) (blocksOf r.bases)).length,
      (blockConstraints blk).get i j = blockEntry ((blocksOf r.bases).map blockConstraints)
        ((decodeGroups (rowGroups E.layout.dim) (blocksOf r.bases)).getD i default)
        ((decodeGroups (columnGroups E.layout.dim) (blocksOf r.bases)).getD j default) := by
  intro i hi j hj
  obtain ⟨h1, hf⟩ := r.dim_ne_one_of_lt_rows hwf hfit hi
  obtain ⟨hrows, hcols, hne, hentry⟩ := r.readOnlyCopy_constraints h1 hf himpl
  obtain ⟨hm, hn, -, hD⟩ := r.definition_constraints_eq h1 hf himpl
  -- the rows and the columns of the constraint layout are those of the constraint size
  have hiC : i < E.layout.constraintsSize.1.toNat := r.length_rows hwf hfit ▸ hi
  have hjC : j < E.layout.constraintsSize.2.toNat := r.length_columns hwf hfit ▸ hj
  have hi' : i < r.definition.constraints.rows := by rw [hD]; exact hiC
  have hj' : j < r.definition.constraints.cols := by rw [hD]; exact hjC
  have hN : E.constraints.readOnlyCopy.isEmpty = false := by
    simp only [Matrix.isEmpty, hrows, hcols, Bool.or_eq_false_iff, beq_eq_false_iff_ne]
    omega
  have hblkC : blockConstraints blk = E.constraints.readOnlyCopy := by
    simp [blockConstraints, hblk, hf]
  rw [hblkC, Matrix.get_eq_of_entry_eq hne hN (by rw [hrows, hD]; rfl) (by rw [hcols, hD]; rfl)
    hentry hi' hj']
  rw [hD, List.getD_eq_getElem _ _ hi, List.getD_eq_getElem _ _ hj,
    get_blockDiagonal hiC hjC (List.getElem?_eq_getElem hi) (List.getElem?_eq_getElem hj)]
  simp only [blockEntry, beq_iff_eq]

end CompositeRun

end FiniteElements.Element
