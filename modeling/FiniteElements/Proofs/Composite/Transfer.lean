import FiniteElements.Proofs.Composite.ShapeFunctions
import FiniteElements.Proofs.Composite.Constraints

/-!
# The transfer matrices of a composite

A store keeps, for each kind of transfer, either no matrix or one non-empty square matrix of its
dof count for every child of the cell (`storeTransfer_eq_ok`, `Store.Built.transfersChecked`), and
hands out a child's matrix exactly when it keeps some (`Store.transferIsImplemented_iff`).

A composite asks every block for its matrix of the child and lays them on the diagonal: the entry at
two dofs of one block is that block's entry at their places, and every other entry is `+0`
(`composeTransfer_eq_ok`). When one base keeps no matrix of the kind, the composite keeps none
either. Because blocks are the copies of the bases, told apart by base and copy
(`blockIndex_inj`), the composite's matrix for a child is block diagonal in the copies of its bases
(`CompositeRun.transferMatrix_place`).

## Main definitions

* `FiniteElements.Element.Store.transfers`, `FiniteElements.Element.Definition.transfers`
* `FiniteElements.Element.Store.TransfersChecked`

## Main results

* `FiniteElements.Element.storeTransfer_eq_ok`, `FiniteElements.Element.composeTransfer_eq_ok`
* `FiniteElements.Element.CompositeRun.transferIsImplemented_iff`,
  `FiniteElements.Element.CompositeRun.transferMatrix_place`
* `FiniteElements.Element.composite_transfer`
-/

set_option autoImplicit false

namespace FiniteElements.Dense.Matrix

/-- A copy reads as the matrix, also the empty one: both refuse every entry. -/
theorem entry_copy (m : Matrix) : m.copy.entry = m.entry := by
  unfold copy
  split_ifs with h
  · funext i j
    simp only [isEmpty, Bool.or_eq_true, beq_iff_eq] at h
    simp [entry, position, h, empty, isEmpty, bind, Except.bind, throw, throwThe,
      MonadExceptOf.throw]
  · rfl

theorem entry_setReadOnly (m : Matrix) (name : Option String) : (m.setReadOnly name).entry = m.entry :=
  rfl

@[simp] theorem readOnlyCopy_entry (m : Matrix) : m.readOnlyCopy.entry = m.entry := by
  unfold readOnlyCopy
  split_ifs
  · rfl
  · rw [entry_setReadOnly, entry_copy]

@[simp] theorem readOnlyCopy_rows (m : Matrix) : m.readOnlyCopy.rows = m.rows := by
  unfold readOnlyCopy copy setReadOnly
  split_ifs <;> rfl

end FiniteElements.Dense.Matrix

namespace FiniteElements.Cell

theorem Hypercube.childrenPerCell_pos (c : Hypercube) : 0 < c.childrenPerCell :=
  Nat.two_pow_pos c.dim

end FiniteElements.Cell

namespace FiniteElements.Element

open FiniteElements.Cell FiniteElements.Dense

/-- The transfer matrices of a kind that a definition provides. -/
def Definition.transfers (d : Definition) : Transfer → List Matrix
  | .restriction => d.restriction
  | .prolongation => d.prolongation

/-- The transfer matrices of a kind that a store keeps. -/
def Store.transfers (s : Store) : Transfer → List Matrix
  | .restriction => s.restriction
  | .prolongation => s.prolongation

namespace Store

variable {s : Store} {kind : Transfer}

theorem transferIsImplemented_eq (s : Store) (kind : Transfer) :
    s.transferIsImplemented kind = !(s.transfers kind).isEmpty := by
  cases kind <;> rfl

/-- The matrix of a child is the read-only copy of the kept one, when the store keeps some. -/
theorem transferMatrix_of_lt {c : Nat} (hc : c < s.cell.childrenPerCell)
    (himpl : s.transferIsImplemented kind = true) :
    s.transferMatrix kind c = .ok ((s.transfers kind).getD c .empty).readOnlyCopy := by
  rw [transferIsImplemented_eq, Bool.not_eq_true'] at himpl
  have hc' : (0 : Int) ≤ c ∧ (c : Int) < s.cell.childrenPerCell := by omega
  cases kind <;>
    simp_all [transferMatrix, restrictionMatrix, prolongationMatrix, transfers, pure, Except.pure]

/-- A store that keeps no matrix of a kind refuses every child's. -/
theorem transferMatrix_ne_ok (himpl : s.transferIsImplemented kind = false) (child : Int)
    (M : Matrix) : s.transferMatrix kind child ≠ .ok M := by
  rw [transferIsImplemented_eq, Bool.not_eq_false'] at himpl
  cases kind <;>
    simp only [transferMatrix, restrictionMatrix, prolongationMatrix, transfers] at himpl ⊢ <;>
    split_ifs <;> simp_all [report, bind, Except.bind]

/-- **The matrix of a child, when handed out**, is the read-only copy of the one kept for it. -/
theorem transferMatrix_eq_ok {child : Int} {M : Matrix} (h : s.transferMatrix kind child = .ok M) :
    0 ≤ child ∧ child < s.cell.childrenPerCell ∧ s.transferIsImplemented kind = true ∧
      M = ((s.transfers kind).getD child.toNat .empty).readOnlyCopy := by
  by_cases himpl : s.transferIsImplemented kind = true
  · have hc : 0 ≤ child ∧ child < s.cell.childrenPerCell := by
      by_contra hc
      cases kind <;>
        simp [transferMatrix, restrictionMatrix, prolongationMatrix, hc, report, bind,
          Except.bind] at h
    obtain ⟨n, rfl⟩ := Int.eq_ofNat_of_zero_le hc.1
    rw [transferMatrix_of_lt (by omega) himpl, Except.ok.injEq] at h
    exact ⟨hc.1, hc.2, himpl, h.symm⟩
  · exact absurd h (transferMatrix_ne_ok (Bool.eq_false_iff.2 himpl) child M)

/-- **A store hands out the matrices of a kind exactly when it keeps some**: then every child's,
else none. -/
theorem transferIsImplemented_iff :
    s.transferIsImplemented kind = true ↔
      ∀ c < s.cell.childrenPerCell, ∃ M, s.transferMatrix kind c = .ok M := by
  constructor
  · intro himpl c hc
    exact ⟨_, transferMatrix_of_lt hc himpl⟩
  · intro h
    -- every cell has a first child
    obtain ⟨M, hM⟩ := h 0 s.cell.childrenPerCell_pos
    by_contra himpl
    exact transferMatrix_ne_ok (Bool.eq_false_iff.2 himpl) 0 M hM

end Store

section Storing

variable {kind : Transfer} {mats R : List Matrix} {fd : DofLayout} {c : Hypercube}

/-- **What storing transfer matrices keeps.** Either all given matrices are empty and none is kept,
or there is one for each child, each non-empty and square of the dof count, and each is kept with
its shape and entries. -/
theorem storeTransfer_eq_ok (h : storeTransfer kind mats fd c = .ok R) :
    (R = [] ∧ ∀ m ∈ mats, m.isEmpty = true) ∨
      (mats.length = c.childrenPerCell ∧ List.Forall₂ (fun m m' => m.isEmpty = false ∧
        (m.rows : Int) = fd.dofsPerCell ∧ (m.cols : Int) = fd.dofsPerCell ∧
        m'.rows = m.rows ∧ m'.cols = m.cols ∧ m'.entry = m.entry) mats R) := by
  unfold storeTransfer at h
  by_cases hnone : (mats.filter fun m => !m.isEmpty).length = 0
  · simp only [hnone, beq_self_eq_true, if_true, pure, Except.pure, Except.ok.injEq] at h
    refine .inl ⟨h.symm, fun m hm => ?_⟩
    rw [List.length_eq_zero_iff, List.filter_eq_nil_iff] at hnone
    simpa using hnone m hm
  · simp only [hnone, beq_iff_eq, if_false] at h
    rw [ite_throw_bind_eq_ok] at h
    obtain ⟨hcount, h⟩ := h
    simp only [Bool.or_eq_true, bne_iff_ne, ne_eq, not_or, not_not,
      List.length_filter_eq_length_iff] at hcount
    obtain ⟨hlen, hall⟩ := hcount
    have hR := length_eq_of_mapM_eq_ok h
    rw [List.length_zipIdx] at hR
    refine .inr ⟨hlen, List.forall₂_iff_get.2 ⟨hR.symm, fun i hi hi' => ?_⟩⟩
    -- the matrix of child `i` passed the shape check and was kept as a read-only copy
    have hstep := getElem_of_mapM_eq_ok h (by simpa using hi) hi'
    rw [List.getElem_zipIdx, ite_throw_bind_eq_ok] at hstep
    obtain ⟨hshape, hkept⟩ := hstep
    simp only [Bool.or_eq_true, bne_iff_ne, ne_eq, not_or, not_not] at hshape
    have hne : mats[i].isEmpty = false := by simpa using hall _ (List.getElem_mem hi)
    have hkept := Except.ok.inj hkept
    rw [Matrix.copy_of_isEmpty_false hne] at hkept
    rw [List.get_eq_getElem, List.get_eq_getElem, ← hkept]
    exact ⟨hne, hshape.1, hshape.2, rfl, rfl, rfl⟩

/-- Storing keeps no matrix exactly when all given matrices are empty. -/
theorem storeTransfer_eq_nil_iff (h : storeTransfer kind mats fd c = .ok R) :
    R = [] ↔ ∀ m ∈ mats, m.isEmpty = true := by
  rcases storeTransfer_eq_ok h with ⟨rfl, hall⟩ | ⟨-, hkept⟩
  · exact iff_of_true rfl hall
  · constructor
    · rintro rfl
      rw [List.forall₂_nil_right_iff.1 hkept]
      exact fun m hm => nomatch hm
    · intro hall
      -- a kept matrix is not empty, so none was given
      cases hkept with
      | nil => rfl
      | cons hm _ => simp [hm.1] at hall

end Storing

/-- The transfer matrices of a kind a store keeps, when it keeps some: one non-empty square matrix
of its dof count for each child. -/
def Store.TransfersChecked (s : Store) (kind : Transfer) : Prop :=
  s.transferIsImplemented kind = true → (s.transfers kind).length = s.cell.childrenPerCell ∧
    ∀ m ∈ s.transfers kind, m.isEmpty = false ∧ (m.rows : Int) = s.dofsPerCell ∧
      (m.cols : Int) = s.dofsPerCell

/-- An assembled store keeps what storing the definition's matrices gave. -/
theorem storeTransfer_of_assemble {d : Definition} {c : Hypercube} {tables : IndexTables}
    {faceMap : Option (List (List Nat))} {s : Store} (h : Store.assemble d c tables faceMap = .ok s)
    (kind : Transfer) :
    storeTransfer kind (d.transfers kind) d.layout c = .ok (s.transfers kind) ∧
      s.layout = d.layout ∧ s.cell = c := by
  obtain ⟨R, P, -, -, hR, hP, -, -, rfl⟩ := Store.assemble_eq_ok h
  cases kind
  exacts [⟨hR, rfl, rfl⟩, ⟨hP, rfl, rfl⟩]

theorem transfersChecked_of_assemble {d : Definition} {c : Hypercube} {tables : IndexTables}
    {faceMap : Option (List (List Nat))} {s : Store} (h : Store.assemble d c tables faceMap = .ok s)
    (kind : Transfer) : s.TransfersChecked kind := by
  obtain ⟨hstore, hlayout, hcell⟩ := storeTransfer_of_assemble h kind
  intro himpl
  rw [Store.transferIsImplemented_eq, Bool.not_eq_true', List.isEmpty_eq_false_iff] at himpl
  rcases storeTransfer_eq_ok hstore with ⟨hnil, -⟩ | ⟨hlen, hkept⟩
  · exact absurd hnil himpl
  refine ⟨by rw [← hkept.length_eq, hlen, hcell], fun m' hm' => ?_⟩
  obtain ⟨i, hi, rfl⟩ := List.getElem_of_mem hm'
  obtain ⟨hne, hrows, hcols, hrows', hcols', -⟩ :=
    (List.forall₂_iff_get.1 hkept).2 i (by rw [hkept.length_eq]; exact hi) hi
  simp only [List.get_eq_getElem] at hne hrows hcols hrows' hcols'
  refine ⟨?_, ?_, ?_⟩
  · simpa [Matrix.isEmpty, hrows', hcols'] using hne
  · rw [hrows', hrows, Store.dofsPerCell, hlayout]
  · rw [hcols', hcols, Store.dofsPerCell, hlayout]

/-- **Every built store keeps checked transfer matrices.** -/
theorem Store.Built.transfersChecked {s : Store} (h : s.Built) (kind : Transfer) :
    s.TransfersChecked kind := by
  cases h with
  | simple _ h =>
    obtain ⟨c, tables, -, -, h⟩ := Store.ofDefinition_eq_ok h
    exact transfersChecked_of_assemble h kind
  | composite _ h =>
    obtain ⟨r⟩ := Store.composite_eq_ok h
    exact transfersChecked_of_assemble r.assemble_eq kind

section Composing

variable {kind : Transfer} {c : Hypercube} {cell : List BlockDof} {blocks : List Block}
  {mats : List Matrix}

/-- **What composing transfer matrices gives.** None when a block keeps none of the kind; else, for
each child, the block-diagonal matrix on the composite's dofs of the matrices the blocks hand out
for that child. -/
theorem composeTransfer_eq_ok (h : composeTransfer kind c cell blocks = .ok mats) :
    (blocks.all (fun blk => blk.store.transferIsImplemented kind) = false ∧ mats = []) ∨
      (blocks.all (fun blk => blk.store.transferIsImplemented kind) = true ∧ 0 < cell.length ∧
        mats.length = c.childrenPerCell ∧ ∀ child < c.childrenPerCell, ∃ ms,
          blocks.mapM (fun blk => blk.store.transferMatrix kind child) = .ok ms ∧
          mats.getD child .empty = blockDiagonal ⟨cell.length, cell.length,
            Array.replicate (cell.length * cell.length) 0, false, defaultName⟩ cell cell ms) := by
  unfold composeTransfer at h
  cases hall : blocks.all fun blk => blk.store.transferIsImplemented kind
  · simp only [hall, Bool.not_false, if_true, pure, Except.pure, Except.ok.injEq] at h
    exact .inl ⟨rfl, h.symm⟩
  simp only [hall, Bool.not_true, Bool.false_eq_true, if_false] at h
  have hlen := length_eq_of_mapM_eq_ok h
  rw [List.length_range] at hlen
  -- the matrix of each child is allocated as zeros of the dof count, then filled block by block
  have hchild : ∀ child < c.childrenPerCell, 0 < cell.length ∧ ∃ ms,
      blocks.mapM (fun blk => blk.store.transferMatrix kind child) = .ok ms ∧
      mats.getD child .empty = blockDiagonal ⟨cell.length, cell.length,
        Array.replicate (cell.length * cell.length) 0, false, defaultName⟩ cell cell ms := by
    intro child hc
    have hstep := getElem_of_mapM_eq_ok h (by simpa using hc) (by omega)
    rw [List.getElem_range, bind_eq_ok] at hstep
    obtain ⟨ms, hms, hstep⟩ := hstep
    rw [bind_eq_ok] at hstep
    obtain ⟨Z, hZ, hstep⟩ := hstep
    rw [liftMatrix, mapError_eq_ok] at hZ
    obtain ⟨hpos, -, rfl⟩ := Matrix.zeros_eq_ok hZ
    refine ⟨by omega, ms, hms, ?_⟩
    rw [List.getD_eq_getElem?_getD, List.getElem?_eq_getElem (by omega), Option.getD_some,
      ← Except.ok.inj hstep]
    rfl
  exact .inr ⟨rfl, (hchild 0 c.childrenPerCell_pos).1, hlen,
    fun child hc => (hchild child hc).2⟩

end Composing

section Copies

variable {bases : List (Store × Nat)}

/-- **Blocks tell the copies apart**: two copies of bases sit in one block only when they are the
same copy of the same base. -/
theorem blockIndex_inj {b t b' t' : Nat} (hb : b < bases.length)
    (ht : t < (bases.getD b default).2) (hb' : b' < bases.length)
    (ht' : t' < (bases.getD b' default).2) (h : blockIndex bases b t = blockIndex bases b' t') :
    b = b' ∧ t = t' := by
  obtain ⟨-, hbase, hcopy⟩ := getD_blocksOf_blockIndex hb ht
  obtain ⟨-, hbase', hcopy'⟩ := getD_blocksOf_blockIndex hb' ht'
  rw [h] at hbase hcopy
  exact ⟨hbase.symm.trans hbase', hcopy.symm.trans hcopy'⟩

/-- A property holds of every block's store exactly when it holds of every base, each base having
a copy. -/
theorem all_blocksOf_iff (P : Store → Bool) (hm : ∀ x ∈ bases, 0 < x.2) :
    (blocksOf bases).all (fun blk => P blk.store) = true ↔ ∀ x ∈ bases, P x.1 = true := by
  rw [List.all_eq_true]
  constructor
  · intro h x hx
    obtain ⟨b, hb, rfl⟩ := List.getElem_of_mem hx
    have hgetb : bases.getD b default = bases[b] := by
      rw [List.getD_eq_getElem?_getD, List.getElem?_eq_getElem hb, Option.getD_some]
    have ht : 0 < (bases.getD b default).2 := by
      rw [hgetb]
      exact hm _ hx
    -- the first copy of the base is a block
    have hblk := h _ (getD_mem_of_lt default (blockIndex_lt hb ht))
    rwa [(getD_blocksOf_blockIndex hb ht).1, hgetb] at hblk
  · intro h blk hblk
    obtain ⟨β, hβ, rfl⟩ := List.getElem_of_mem hblk
    obtain ⟨x, hx, hs⟩ := store_getD_blocksOf hβ
    rw [List.getD_eq_getElem?_getD, List.getElem?_eq_getElem hβ, Option.getD_some] at hs
    rw [hs]
    exact h x hx

end Copies

namespace CompositeRun

variable {p : Packing} {specs : List (Option Store × Int)} {E : Store}
  (r : CompositeRun p specs E)

theorem composeTransfer_eq (kind : Transfer) :
    composeTransfer kind r.cell (cellLayout r.cell p (blocksOf r.bases)) (blocksOf r.bases) =
      .ok (r.definition.transfers kind) := by
  cases kind
  exacts [r.restriction_eq, r.prolongation_eq]

theorem storeTransfer_store (kind : Transfer) :
    storeTransfer kind (r.definition.transfers kind) r.layout r.cell = .ok (E.transfers kind) := by
  rw [← r.definition_layout]
  exact (storeTransfer_of_assemble r.assemble_eq kind).1

theorem all_blocks_iff (kind : Transfer) :
    (blocksOf r.bases).all (fun blk => blk.store.transferIsImplemented kind) = true ↔
      ∀ x ∈ r.bases, x.1.transferIsImplemented kind = true :=
  all_blocksOf_iff (·.transferIsImplemented kind) fun x hx =>
    ((checkBases_eq_ok r.checkBases_eq).2 x hx).1

/-- **A composite keeps transfer matrices of a kind exactly when all its bases do.** -/
theorem transferIsImplemented_iff (kind : Transfer) :
    E.transferIsImplemented kind = true ↔ ∀ x ∈ r.bases, x.1.transferIsImplemented kind = true := by
  rw [← r.all_blocks_iff kind, Store.transferIsImplemented_eq, Bool.not_eq_true',
    List.isEmpty_eq_false_iff, Ne, storeTransfer_eq_nil_iff (r.storeTransfer_store kind)]
  rcases composeTransfer_eq_ok (r.composeTransfer_eq kind) with ⟨hall, hnil⟩ | ⟨hall, hn, hlen, hchild⟩
  · simp [hall, hnil]
  · -- the first child's matrix is a square of the composite's dofs, so not empty
    obtain ⟨ms, -, h0⟩ := hchild 0 r.cell.childrenPerCell_pos
    have hmem : (r.definition.transfers kind).getD 0 .empty ∈ r.definition.transfers kind :=
      getD_mem_of_lt _ (by rw [hlen]; exact r.cell.childrenPerCell_pos)
    refine iff_of_true (fun hempty => ?_) hall
    have h0e := hempty _ hmem
    rw [h0, isEmpty_blockDiagonal, Matrix.isEmpty_square_zeros hn] at h0e
    cases h0e

variable (hbuilt : ∀ x ∈ r.bases, x.1.Built)
include hbuilt

/-- **The composite's matrix of a child is block diagonal in the copies of its bases.** It is a
square of the composite's dofs; its entry at two shape functions of one copy of a base is that
base's entry for the child at their places, and every other entry is `+0`. -/
theorem transferMatrix_place {kind : Transfer} (himpl : E.transferIsImplemented kind = true)
    {c : Nat} (hc : c < E.cell.childrenPerCell) :
    ∃ M, E.transferMatrix kind c = .ok M ∧ (M.rows : Int) = E.dofsPerCell ∧
      (M.cols : Int) = E.dofsPerCell ∧
      ∀ i j x y, E.systemToBaseIndex i = .ok x → E.systemToBaseIndex j = .ok y →
        ∃ B, (r.bases.getD x.base default).1.transferMatrix kind c = .ok B ∧
          M.entry i j = if x.base = y.base ∧ x.copy = y.copy then B.entry x.index y.index
            else .ok 0 := by
  have hwf : ∀ x ∈ r.bases, x.1.WellFormed := fun x hx => (hbuilt x hx).wellFormed
  have hall := (r.all_blocks_iff kind).2 ((r.transferIsImplemented_iff kind).1 himpl)
  have hcE := hc
  rw [r.cell_store] at hc
  obtain ⟨-, hn, hlen, hchild⟩ :=
    (composeTransfer_eq_ok (r.composeTransfer_eq kind)).resolve_left (by simp [hall])
  obtain ⟨ms, hms, hD⟩ := hchild c hc
  -- the composite keeps its composed matrix of the child with its shape and entries
  rcases storeTransfer_eq_ok (r.storeTransfer_store kind) with ⟨hnil, -⟩ | ⟨-, hkept⟩
  · rw [Store.transferIsImplemented_eq, hnil] at himpl
    simp at himpl
  have hcD : c < (r.definition.transfers kind).length := by omega
  obtain ⟨-, hrows, hcols, hrows', hcols', hentry⟩ :=
    (List.forall₂_iff_get.1 hkept).2 c hcD (by rw [← hkept.length_eq]; exact hcD)
  simp only [List.get_eq_getElem, ← List.getD_eq_getElem _ Matrix.empty] at hrows hcols
  simp only [List.get_eq_getElem, ← List.getD_eq_getElem _ Matrix.empty] at hrows' hcols' hentry
  have hdofs : E.dofsPerCell = r.layout.dofsPerCell := by rw [Store.dofsPerCell, r.layout_store]
  refine ⟨_, Store.transferMatrix_of_lt hcE himpl, ?_, ?_, fun i j x y hx hy => ?_⟩
  · rw [Matrix.readOnlyCopy_rows, hrows', hrows, hdofs]
  · rw [Matrix.readOnlyCopy_cols, hcols', hcols, hdofs]
  obtain ⟨hi0, hcelli, hxmem⟩ := r.getElem?_cellLayout hwf hx
  obtain ⟨hj0, hcellj, hymem⟩ := r.getElem?_cellLayout hwf hy
  obtain ⟨hb, ht, hk⟩ := (mem_blockPlaces _ _).1 hxmem
  obtain ⟨hb', ht', hk'⟩ := (mem_blockPlaces _ _).1 hymem
  obtain ⟨hs, -, -⟩ := r.block_place hwf hb ht
  have hβ := blockIndex_lt hb ht
  have hβms : blockIndex r.bases x.base x.copy < ms.length := by
    rw [length_eq_of_mapM_eq_ok hms]
    exact hβ
  -- the base's matrix of the child is the one its block handed out
  have hB := getElem_of_mapM_eq_ok hms hβ hβms
  rw [← List.getD_eq_getElem _ default hβ, hs] at hB
  refine ⟨_, hB, ?_⟩
  obtain ⟨n, rfl⟩ := Int.eq_ofNat_of_zero_le hi0
  obtain ⟨n', rfl⟩ := Int.eq_ofNat_of_zero_le hj0
  rw [Int.toNat_natCast] at hcelli hcellj
  have hnlt : n < (cellLayout r.cell p (blocksOf r.bases)).length :=
    (List.getElem?_eq_some_iff.1 hcelli).1
  have hnlt' : n' < (cellLayout r.cell p (blocksOf r.bases)).length :=
    (List.getElem?_eq_some_iff.1 hcellj).1
  rw [Matrix.readOnlyCopy_entry, hentry, hD,
    Matrix.entry_of_lt (by rw [isEmpty_blockDiagonal, Matrix.isEmpty_square_zeros hn]) hnlt hnlt',
    get_blockDiagonal hnlt hnlt' hcelli hcellj]
  by_cases hsame : x.base = y.base ∧ x.copy = y.copy
  · obtain ⟨hbb, htt⟩ := hsame
    rw [if_pos (by rw [hbb, htt]), if_pos ⟨hbb, htt⟩, List.getD_eq_getElem _ _ hβms]
    -- the base keeps a non-empty square of its dofs for the child
    obtain ⟨-, hcB, himplB, hBeq⟩ := Store.transferMatrix_eq_ok hB
    obtain ⟨hlenB, hmB⟩ := (hbuilt _ (getD_mem_of_lt default hb)).transfersChecked kind himplB
    rw [Int.toNat_natCast] at hBeq
    obtain ⟨hneB, hrowsB, hcolsB⟩ :=
      hmB _ (getD_mem_of_lt _ (by rw [hlenB]; exact_mod_cast hcB))
    rw [← hbb] at hk'
    rw [hBeq, Matrix.entry_of_lt (by simpa [Matrix.isEmpty] using hneB)
      (by simp only [Matrix.readOnlyCopy_rows]; omega)
      (by simp only [Matrix.readOnlyCopy_cols]; omega)]
  · rw [if_neg (fun heq => hsame (blockIndex_inj hb ht hb' ht' heq)), if_neg hsame]

end CompositeRun

/-- **The transfer matrices of a composite are block diagonal in the copies of its bases.** Take a
composite of built bases. It keeps restriction (prolongation) matrices exactly when every base does,
and exactly when it hands out one for every child. Then its matrix for a child is a square of its
dofs, and its entry at two shape functions placed in one copy of a base is that base's entry for
the child at their places; every other entry is `+0`. -/
theorem composite_transfer {p : Packing} {bases : List (Store × Nat)} {E : Store}
    (h : Store.composite p (asSpecs bases) = .ok E) (hbuilt : ∀ x ∈ bases, x.1.Built)
    (kind : Transfer) :
    (E.transferIsImplemented kind = true ↔ ∀ x ∈ bases, x.1.transferIsImplemented kind = true) ∧
      (E.transferIsImplemented kind = true ↔
        ∀ c < E.cell.childrenPerCell, ∃ M, E.transferMatrix kind c = .ok M) ∧
      (E.transferIsImplemented kind = true → ∀ c < E.cell.childrenPerCell, ∃ M,
        E.transferMatrix kind c = .ok M ∧ (M.rows : Int) = E.dofsPerCell ∧
        (M.cols : Int) = E.dofsPerCell ∧
        ∀ i j x y, E.systemToBaseIndex i = .ok x → E.systemToBaseIndex j = .ok y →
          ∃ B, (bases.getD x.base default).1.transferMatrix kind c = .ok B ∧
            M.entry i j = if x.base = y.base ∧ x.copy = y.copy then B.entry x.index y.index
              else .ok 0) := by
  obtain ⟨r⟩ := Store.composite_eq_ok h
  -- the run checked exactly the given bases
  have hb : bases = r.bases := asSpecs_injective (checkBases_eq_ok r.checkBases_eq).1
  rw [hb] at hbuilt ⊢
  exact ⟨r.transferIsImplemented_iff kind, Store.transferIsImplemented_iff,
    fun himpl c hc => r.transferMatrix_place hbuilt himpl hc⟩

theorem linearSegmentPair_transfer :
    Store.composite .blocked (asSpecs [(Store.linearSegment, 2)]) = .ok linearSegmentPair ∧
      (∀ x ∈ [(Store.linearSegment, 2)], x.1.Built) ∧
      (linearSegmentPair.transferIsImplemented .restriction = true ↔
        ∀ x ∈ [(Store.linearSegment, 2)], x.1.transferIsImplemented .restriction = true) ∧
      (linearSegmentPair.transferIsImplemented .restriction = true ↔
        ∀ c < linearSegmentPair.cell.childrenPerCell,
          ∃ M, linearSegmentPair.transferMatrix .restriction c = .ok M) ∧
      (linearSegmentPair.transferIsImplemented .restriction = true →
        ∀ c < linearSegmentPair.cell.childrenPerCell, ∃ M,
          linearSegmentPair.transferMatrix .restriction c = .ok M ∧
          (M.rows : Int) = linearSegmentPair.dofsPerCell ∧
          (M.cols : Int) = linearSegmentPair.dofsPerCell ∧
          ∀ i j x y, linearSegmentPair.systemToBaseIndex i = .ok x →
            linearSegmentPair.systemToBaseIndex j = .ok y →
            ∃ B, ([(Store.linearSegment, 2)].getD x.base default).1.transferMatrix .restriction c =
                .ok B ∧
              M.entry i j = if x.base = y.base ∧ x.copy = y.copy then B.entry x.index y.index
                else .ok 0) :=
  ⟨linearSegmentPair_eq, linearSegmentPair_bases_built,
    composite_transfer linearSegmentPair_eq linearSegmentPair_bases_built .restriction⟩

end FiniteElements.Element
