import FiniteElements.Proofs.Composite.Layouts
import FiniteElements.Proofs.Element.WellFormed

/-!
# How many dofs a composite has, and where each block's dofs are

In a composite of well-formed bases every block is a well-formed store on the composite's cell.
The composite's counts are the blocks' counts summed as machine words, and its check makes it
have one mask per listed dof. From these:

* a blocked composite lists every block's dofs in the block's order, so it has the blocks' cell
  dofs in all (`CompositeRun.dofsPerCell_eq`);
* an interleaved composite lists `Σ_β cellPrefix_β` dofs, so no base overflows its own layout, and
  then it too lists every block's dofs in the block's order (`CompositeRun.cell_ordered`);
* in both, the face dofs are the blocks' face dofs: the composite's face count is their sum modulo
  `2^64`, and that sum is below the composite's cell count (`CompositeRun.dofsPerFace_eq`).

## Main results

* `CompositeRun.cell_ordered`, `CompositeRun.face_ordered`
* `CompositeRun.dofsPerCell_eq`, `CompositeRun.dofsPerFace_eq`
-/

namespace FiniteElements.Numeric

set_option autoImplicit false

/-- Sums agree modulo `2^64` when their terms do. -/
theorem sum_emod_congr {α : Type} (xs : List α) {f g : α → Int}
    (h : ∀ x ∈ xs, f x % 2 ^ 64 = g x % 2 ^ 64) :
    (xs.map f).sum % 2 ^ 64 = (xs.map g).sum % 2 ^ 64 := by
  induction xs with
  | nil => rfl
  | cons x xs ih =>
    simp only [List.map_cons, List.sum_cons]
    rw [Int.add_emod, h x (List.mem_cons_self ..), ih fun y hy => h y (List.mem_cons_of_mem _ hy),
      ← Int.add_emod]

end FiniteElements.Numeric

namespace FiniteElements.Cell

set_option autoImplicit false

theorem Hypercube.objectsPerCell_eq_zero {c : Hypercube} {j : Nat} (h : c.dim < j) :
    c.objectsPerCell.getD j 0 = 0 := by
  rcases Nat.lt_or_ge j 4 with hj | hj
  · cases c <;> simp only [Hypercube.dim] at h <;> interval_cases j <;> rfl
  · rw [List.getD_eq_getElem?_getD,
      List.getElem?_eq_none (by cases c <;> simpa [Hypercube.objectsPerCell])]
    rfl

theorem Hypercube.objectsPerFace_eq_zero {c : Hypercube} {j : Nat} (h : c.dim ≤ j) :
    c.objectsPerFace.getD j 0 = 0 := by
  rcases Nat.lt_or_ge j 4 with hj | hj
  · cases c <;> simp only [Hypercube.dim] at h <;> interval_cases j <;> rfl
  · rw [List.getD_eq_getElem?_getD,
      List.getElem?_eq_none (by cases c <;> simpa [Hypercube.objectsPerFace])]
    rfl

theorem Hypercube.objectsPerCell_pos {c : Hypercube} {k : Nat} (h : k ≤ c.dim) :
    0 < c.objectsPerCell.getD k 0 := by
  cases c <;> simp only [Hypercube.dim] at h <;> interval_cases k <;> decide

theorem Hypercube.dim_le (c : Hypercube) : c.dim ≤ 3 := by
  cases c <;> simp [Hypercube.dim]

end FiniteElements.Cell

namespace FiniteElements.Element

set_option autoImplicit false

open FiniteElements.Cell FiniteElements.Numeric

/-- A sum of nonnegative integers, each taken as a natural number. -/
theorem natCast_sum_toNat {α : Type} (xs : List α) {f : α → Int} (h : ∀ x ∈ xs, 0 ≤ f x) :
    (((xs.map fun x => (f x).toNat).sum : Nat) : Int) = (xs.map f).sum := by
  induction xs with
  | nil => rfl
  | cons x xs ih =>
    simp only [List.map_cons, List.sum_cons, Nat.cast_add]
    rw [ih fun y hy => h y (List.mem_cons_of_mem _ hy),
      Int.toNat_of_nonneg (h x (List.mem_cons_self ..))]

/-- The cell dofs of block `β`. -/
def blockCells (blocks : List Block) (β : Nat) : Nat := (blocks.getD β default).store.dofsPerCell.toNat

/-- The face dofs of block `β`. -/
def blockFaces (blocks : List Block) (β : Nat) : Nat :=
  (blocks.getD β default).store.layout.dofsPerFace.toNat

theorem map_range_blockCells (blocks : List Block) :
    (List.range blocks.length).map (blockCells blocks) =
      blocks.map (·.store.dofsPerCell.toNat) :=
  map_range_getD blocks fun blk => blk.store.dofsPerCell.toNat

theorem map_range_blockFaces (blocks : List Block) :
    (List.range blocks.length).map (blockFaces blocks) =
      blocks.map (·.store.layout.dofsPerFace.toNat) :=
  map_range_getD blocks fun blk => blk.store.layout.dofsPerFace.toNat

/-- The kind-by-kind sum over blocks of counts is the sum over blocks of their kind-by-kind
sums. -/
theorem sum_kinds_sum_blocks (objs : Nat → Int) (cnt : Block → Nat → Int) (blocks : List Block)
    (k : Nat) :
    ((List.range k).map fun j => objs j * (blocks.map (cnt · j)).sum).sum =
      (blocks.map fun blk => ((List.range k).map fun j => objs j * cnt blk j).sum).sum := by
  induction blocks with
  | nil => simp
  | cons blk blocks ih =>
    simp only [List.map_cons, List.sum_cons, Int.mul_add, List.sum_map_add, ih]

namespace DofLayout

variable {fd : DofLayout} {c : Hypercube}

theorem cellPrefix_eq_objectOffset (hn : ∀ k, 0 ≤ fd.countOf k) (k : Nat) :
    fd.cellPrefix c k =
      (objectOffset (c.objectsPerCell.getD · 0) (fun j => (fd.countOf j).toNat) k : Int) := by
  induction k with
  | zero => simp [cellPrefix, objectOffset]
  | succ k ih =>
    rw [cellPrefix_succ, objectOffset_succ, ih]
    push_cast
    rw [Int.toNat_of_nonneg (hn k)]

theorem facePrefix_eq_objectOffset (hn : ∀ k, 0 ≤ fd.countOf k) (k : Nat) :
    fd.facePrefix c k =
      (objectOffset (c.objectsPerFace.getD · 0) (fun j => (fd.countOf j).toNat) k : Int) := by
  induction k with
  | zero => simp [facePrefix, objectOffset]
  | succ k ih =>
    rw [facePrefix_succ, objectOffset_succ, ih]
    push_cast
    rw [Int.toNat_of_nonneg (hn k)]

/-- The dofs on one object of a kind the cell has are among the cell's dofs. -/
theorem countOf_le_cellPrefix (hn : ∀ k, 0 ≤ fd.countOf k) {k : Nat} (hk : k ≤ c.dim) :
    fd.countOf k ≤ fd.cellPrefix c 4 := by
  have hobj := Hypercube.objectsPerCell_pos hk
  have hmul : fd.countOf k ≤ (c.objectsPerCell.getD k 0 : Int) * fd.countOf k := by
    have := Int.mul_le_mul_of_nonneg_right (show (1 : Int) ≤ c.objectsPerCell.getD k 0 by omega) (hn k)
    omega
  have hsucc := cellPrefix_succ fd c k
  have hmono := cellPrefix_mono hn (c := c) (show k + 1 ≤ 4 by have := c.dim_le; omega)
  have hpre := cellPrefix_nonneg hn (c := c) k
  omega

end DofLayout

section Ordered

variable {c : Hypercube} {p : Packing} {blocks : List Block}
  (hp : p = .interleaved ∨ p = .blocked)
  (hw : ∀ blk ∈ blocks, blk.store.WellFormed ∧ blk.store.cell = c)
  (hfit : p = .interleaved → ∀ blk ∈ blocks, blk.store.layout.cellPrefix c 4 < 2 ^ 63)
include hp hw hfit

/-- **Each block's cell dofs come in its own order**, in both packings, when every block is a
well-formed store on the cell and, interleaved, counts its dofs exactly. -/
theorem cellLayout_ordered :
    BlockOrdered (cellLayout c p blocks) blocks.length (blockCells blocks) := by
  rcases hp with rfl | rfl
  · refine ⟨fun bd hbd => block_lt_of_mem_interleavedDofs hbd, fun β hβ => ?_⟩
    have hmem := getD_mem_of_lt default hβ
    obtain ⟨hS, hcell⟩ := hw _ hmem
    have hwc := hcell ▸ hS.layout_wf
    obtain ⟨hfirst, hcells, -, -⟩ := hwc.exact (hfit rfl _ hmem)
    have hoff := DofLayout.cellPrefix_eq_objectOffset (c := c) hwc.count_nonneg
    simp only [cellLayout]
    rw [index_filter_interleavedDofs hβ hwc.count_nonneg fun k hk => by
      rw [hfirst k (by have := c.dim_le; omega), hoff]]
    -- the block's dofs run up to its exact count
    have hcount := hoff (c.dim + 1)
    rw [DofLayout.cellPrefix_dim_succ, ← hcells] at hcount
    simp only [blockCells, Store.dofsPerCell, hcount, Int.toNat_natCast]
  · rw [cellLayout_blocked]
    exact blockOrdered_blockwise

/-- **Each block's face dofs come in its own order**, in both packings. -/
theorem faceLayout_ordered :
    BlockOrdered (faceLayout c p blocks) blocks.length (blockFaces blocks) := by
  rcases hp with rfl | rfl
  · refine ⟨fun bd hbd => block_lt_of_mem_interleavedDofs hbd, fun β hβ => ?_⟩
    have hmem := getD_mem_of_lt default hβ
    obtain ⟨hS, hcell⟩ := hw _ hmem
    have hwc := hcell ▸ hS.layout_wf
    obtain ⟨-, -, hfirst, hfaces⟩ := hwc.exact (hfit rfl _ hmem)
    have hoff := DofLayout.facePrefix_eq_objectOffset (c := c) hwc.count_nonneg
    simp only [faceLayout]
    rw [index_filter_interleavedDofs hβ hwc.count_nonneg fun k hk => by
      rw [hfirst k (by have := c.dim_le; omega), hoff]]
    have hcount := hoff c.dim
    rw [DofLayout.facePrefix_dim, ← hfaces] at hcount
    simp only [blockFaces, hcount, Int.toNat_natCast]
  · rw [faceLayout_blocked]
    exact blockOrdered_blockwise

end Ordered

namespace CompositeRun

variable {p : Packing} {specs : List (Option Store × Int)} {E : Store}
  (r : CompositeRun p specs E)

/-- The layout of a composite satisfies the layout equations on its cell, with the blocks' counts
summed as machine words. -/
theorem layout_wf : r.layout.Wf r.cell ∧ (r.cell.dim : Int) = leadDim r.bases ∧
    ∀ k ≤ r.cell.dim,
      r.layout.countOf k = wrapWord ((blocksOf r.bases).map (·.store.layout.countOf k)).sum := by
  obtain ⟨c, hwf, hdim, -, hcount, -⟩ := DofLayout.wf_of_ofCounts? r.layout_eq
  have hc : c = r.cell := by
    have := hwf.cell
    rw [hdim, r.cell_eq] at this
    simpa using this.symm
  subst hc
  have hcell := Hypercube.dim_of_ofDim? r.cell_eq
  refine ⟨hwf, hcell, fun k hk => ?_⟩
  rw [hcount k, summedCounts, List.getD_eq_getElem?_getD, List.getElem?_map,
    List.getElem?_range (by omega)]
  rfl

/-- The composite lists one cell dof per mask, as many as its layout says. -/
theorem length_cellLayout :
    ((cellLayout r.cell p (blocksOf r.bases)).length : Int) = E.dofsPerCell := by
  obtain ⟨c, hc⟩ := r.definition_check
  have hmasks := (Definition.check_eq_ok.1 hc).2.2.2.2.2.1
  rw [← length_eq_of_mapM_eq_ok r.masks_eq, hmasks, r.definition_layout]
  simp [Store.dofsPerCell, r.layout_store]

include r in
theorem dofsPerCell_lt : E.dofsPerCell < 2 ^ 63 := by
  rw [Store.dofsPerCell, r.layout_store, r.layout_wf.1.dofsPerCell_eq]
  exact wrapWord_lt _

variable (hwf : ∀ x ∈ r.bases, x.1.WellFormed)
include hwf

/-- Every block is a well-formed store on the composite's cell. -/
theorem block_wellFormed {β : Nat} (hβ : β < (blocksOf r.bases).length) :
    ((blocksOf r.bases).getD β default).store.WellFormed ∧
      ((blocksOf r.bases).getD β default).store.cell = r.cell := by
  obtain ⟨x, hx, hs⟩ := store_getD_blocksOf hβ
  rw [hs]
  refine ⟨hwf x hx, ?_⟩
  have hcell := (hwf x hx).layout_wf.cell
  rw [((checkBases_eq_ok r.checkBases_eq).2 x hx).2.1, r.cell_eq] at hcell
  simpa using hcell.symm

theorem mem_wellFormed {blk : Block} (h : blk ∈ blocksOf r.bases) :
    blk.store.WellFormed ∧ blk.store.cell = r.cell := by
  obtain ⟨β, hβ, rfl⟩ := List.getElem_of_mem h
  have := r.block_wellFormed hwf hβ
  simpa [List.getD_eq_getElem?_getD, List.getElem?_eq_getElem hβ] using this

/-- The dofs of an interleaved composite are its blocks' dofs counted exactly. -/
theorem sum_cellPrefix_of_interleaved (hp : p = .interleaved) :
    ((blocksOf r.bases).map fun blk => blk.store.layout.cellPrefix r.cell 4).sum = E.dofsPerCell := by
  subst hp
  rw [← r.length_cellLayout]
  simp only [cellLayout, length_interleavedDofs]
  rw [objectOffset_sum _ (fun blk k => (blk.store.layout.countOf k).toNat)]
  rw [Nat.cast_list_sum, List.map_map]
  refine congrArg List.sum (List.map_congr_left fun blk hblk => ?_)
  have hpre := DofLayout.cellPrefix_eq_objectOffset (c := r.cell)
    (r.mem_wellFormed hwf hblk).1.layout_wf.count_nonneg (r.cell.dim + 1)
  rw [DofLayout.cellPrefix_dim_succ] at hpre
  exact hpre

section Exact

/-! ### Composites whose blocks' dofs, counted exactly, are its cell dofs -/

variable (hsum : ((blocksOf r.bases).map fun blk => blk.store.layout.cellPrefix r.cell 4).sum =
  E.dofsPerCell)
include hsum

/-- **A composite that counts its blocks' dofs exactly overflows no block.** They are fewer than
`2^63`, so each block's exact count is too. -/
theorem cellPrefix_lt_of_sum {β : Nat} (hβ : β < (blocksOf r.bases).length) :
    ((blocksOf r.bases).getD β default).store.layout.cellPrefix r.cell 4 < 2 ^ 63 := by
  have hnonneg : ∀ x ∈ (blocksOf r.bases).map fun blk => blk.store.layout.cellPrefix r.cell 4,
      0 ≤ x := fun x hx => by
    obtain ⟨blk, hblk, rfl⟩ := List.mem_map.1 hx
    exact DofLayout.cellPrefix_nonneg (r.mem_wellFormed hwf hblk).1.layout_wf.count_nonneg 4
  -- the block's own count is one term of the sum
  have hterm := List.single_le_sum hnonneg _ (List.mem_map_of_mem
    (f := fun blk => blk.store.layout.cellPrefix r.cell 4) (getD_mem_of_lt default hβ))
  rw [hsum] at hterm
  have := r.dofsPerCell_lt
  omega

theorem mem_cellPrefix_lt_of_sum {blk : Block} (hblk : blk ∈ blocksOf r.bases) :
    blk.store.layout.cellPrefix r.cell 4 < 2 ^ 63 := by
  obtain ⟨β, hβ, rfl⟩ := List.getElem_of_mem hblk
  have := r.cellPrefix_lt_of_sum hwf hsum hβ
  rwa [List.getD_eq_getElem?_getD, List.getElem?_eq_getElem hβ, Option.getD_some] at this

/-- The blocks' dofs on one object of a kind fit a machine word. -/
theorem sum_countOf_lt_of_sum {k : Nat} (hk : k ≤ r.cell.dim) :
    ((blocksOf r.bases).map (·.store.layout.countOf k)).sum < 2 ^ 63 := by
  have hle : ((blocksOf r.bases).map (·.store.layout.countOf k)).sum ≤
      ((blocksOf r.bases).map fun blk => blk.store.layout.cellPrefix r.cell 4).sum :=
    List.sum_le_sum fun blk hblk =>
      DofLayout.countOf_le_cellPrefix (r.mem_wellFormed hwf hblk).1.layout_wf.count_nonneg hk
  rw [hsum] at hle
  have := r.dofsPerCell_lt
  omega

/-- **The composite counts exactly**: its dofs on one object of a kind are its blocks'. -/
theorem countOf_of_sum {k : Nat} (hk : k ≤ r.cell.dim) :
    r.layout.countOf k = ((blocksOf r.bases).map (·.store.layout.countOf k)).sum := by
  have hnonneg : 0 ≤ ((blocksOf r.bases).map (·.store.layout.countOf k)).sum :=
    List.sum_nonneg fun x hx => by
      obtain ⟨blk, hblk, rfl⟩ := List.mem_map.1 hx
      exact (r.mem_wellFormed hwf hblk).1.layout_wf.count_nonneg k
  rw [r.layout_wf.2.2 k hk, wrapWord_eq_self.2 ⟨by omega, r.sum_countOf_lt_of_sum hwf hsum hk⟩]

theorem toNat_countOf_of_sum {k : Nat} (hk : k ≤ r.cell.dim) :
    (r.layout.countOf k).toNat = kindTotal (blocksOf r.bases) k := by
  rw [r.countOf_of_sum hwf hsum hk, ← natCast_sum_toNat _ fun blk hblk =>
    (r.mem_wellFormed hwf hblk).1.layout_wf.count_nonneg k, Int.toNat_natCast]

/-- The offsets of the composite are the blocks' dofs on the earlier objects. -/
theorem cellPrefix_of_sum (k : Nat) :
    r.layout.cellPrefix r.cell k =
      (objectOffset (r.cell.objectsPerCell.getD · 0) (kindTotal (blocksOf r.bases)) k : Int) := by
  rw [DofLayout.cellPrefix_eq_objectOffset r.layout_wf.1.count_nonneg]
  congr 1
  refine objectOffset_congr fun j _ => ?_
  -- past the cell's dimension there are no objects to count
  rcases Nat.lt_or_ge r.cell.dim j with hj | hj
  · exact .inl (Hypercube.objectsPerCell_eq_zero hj)
  · exact .inr (r.toNat_countOf_of_sum hwf hsum hj)

/-- **The composite overflows nothing**: its own exact dof count fits a machine word. -/
theorem layout_cellPrefix_lt_of_sum : r.layout.cellPrefix r.cell 4 < 2 ^ 63 := by
  have hblocks : r.layout.cellPrefix r.cell 4 =
      ((blocksOf r.bases).map fun blk => blk.store.layout.cellPrefix r.cell 4).sum := by
    rw [r.cellPrefix_of_sum hwf hsum, objectOffset_sum _ (fun blk k => (blk.store.layout.countOf k).toNat),
      Nat.cast_list_sum, List.map_map]
    refine congrArg List.sum (List.map_congr_left fun blk hblk => ?_)
    exact (DofLayout.cellPrefix_eq_objectOffset
      (r.mem_wellFormed hwf hblk).1.layout_wf.count_nonneg 4).symm
  rw [hblocks, hsum]
  exact r.dofsPerCell_lt

end Exact

theorem cellPrefix_lt_of_interleaved (hp : p = .interleaved) {β : Nat}
    (hβ : β < (blocksOf r.bases).length) :
    ((blocksOf r.bases).getD β default).store.layout.cellPrefix r.cell 4 < 2 ^ 63 :=
  r.cellPrefix_lt_of_sum hwf (r.sum_cellPrefix_of_interleaved hwf hp) hβ

theorem mem_cellPrefix_lt_of_interleaved (hp : p = .interleaved) {blk : Block}
    (hblk : blk ∈ blocksOf r.bases) : blk.store.layout.cellPrefix r.cell 4 < 2 ^ 63 :=
  r.mem_cellPrefix_lt_of_sum hwf (r.sum_cellPrefix_of_interleaved hwf hp) hblk

/-- **An interleaved composite counts exactly**: its dofs on one object of a kind are its
blocks'. -/
theorem countOf_of_interleaved (hp : p = .interleaved) {k : Nat} (hk : k ≤ r.cell.dim) :
    r.layout.countOf k = ((blocksOf r.bases).map (·.store.layout.countOf k)).sum :=
  r.countOf_of_sum hwf (r.sum_cellPrefix_of_interleaved hwf hp) hk

theorem toNat_countOf_of_interleaved (hp : p = .interleaved) {k : Nat} (hk : k ≤ r.cell.dim) :
    (r.layout.countOf k).toNat = kindTotal (blocksOf r.bases) k :=
  r.toNat_countOf_of_sum hwf (r.sum_cellPrefix_of_interleaved hwf hp) hk

/-- **An interleaved composite overflows nothing**: its own exact dof count fits a machine
word. -/
theorem layout_cellPrefix_lt_of_interleaved (hp : p = .interleaved) :
    r.layout.cellPrefix r.cell 4 < 2 ^ 63 :=
  r.layout_cellPrefix_lt_of_sum hwf (r.sum_cellPrefix_of_interleaved hwf hp)

theorem firstOf_of_interleaved (hp : p = .interleaved) {κ : Nat} (hκ : κ ≤ r.cell.dim) :
    r.layout.firstOf κ =
      (objectOffset (r.cell.objectsPerCell.getD · 0) (kindTotal (blocksOf r.bases)) κ : Int) := by
  have hsum := r.sum_cellPrefix_of_interleaved hwf hp
  rw [(r.layout_wf.1.exact (r.layout_cellPrefix_lt_of_sum hwf hsum)).1 κ
    (by have := r.cell.dim_le; omega), r.cellPrefix_of_sum hwf hsum]

theorem firstFaceOf_of_interleaved (hp : p = .interleaved) {κ : Nat} (hκ : κ < r.cell.dim) :
    r.layout.firstFaceOf κ =
      (objectOffset (r.cell.objectsPerFace.getD · 0) (kindTotal (blocksOf r.bases)) κ : Int) := by
  rw [(r.layout_wf.1.exact (r.layout_cellPrefix_lt_of_interleaved hwf hp)).2.2.1 κ
    (by have := r.cell.dim_le; omega), DofLayout.facePrefix_eq_objectOffset r.layout_wf.1.count_nonneg]
  congr 1
  exact objectOffset_congr fun j hj => .inr (r.toNat_countOf_of_interleaved hwf hp (by omega))

/-- **Each block's cell dofs come in its own order**, in both packings. -/
theorem cell_ordered : BlockOrdered (cellLayout r.cell p (blocksOf r.bases))
    (blocksOf r.bases).length (blockCells (blocksOf r.bases)) :=
  cellLayout_ordered r.packing_eq (fun _ hblk => r.mem_wellFormed hwf hblk)
    fun hp _ hblk => r.mem_cellPrefix_lt_of_interleaved hwf hp hblk

/-- **Each block's face dofs come in its own order**, in both packings. -/
theorem face_ordered : BlockOrdered (faceLayout r.cell p (blocksOf r.bases))
    (blocksOf r.bases).length (blockFaces (blocksOf r.bases)) :=
  faceLayout_ordered r.packing_eq (fun _ hblk => r.mem_wellFormed hwf hblk)
    fun hp _ hblk => r.mem_cellPrefix_lt_of_interleaved hwf hp hblk

/-- **The cell dofs of a composite** are those of its blocks. -/
theorem dofsPerCell_eq : E.dofsPerCell = ((blocksOf r.bases).map (·.store.dofsPerCell)).sum := by
  rw [← r.length_cellLayout, (r.cell_ordered hwf).length, map_range_blockCells]
  exact natCast_sum_toNat _ fun blk hblk =>
    Int.le_of_lt ((r.mem_wellFormed hwf hblk).1.layout_wf.dofsPerCell_pos)

/-- **A composite of bases that fit a machine word counts their dofs exactly.** -/
theorem sum_cellPrefix_of_fit
    (hfit : ∀ blk ∈ blocksOf r.bases, blk.store.layout.cellPrefix r.cell 4 < 2 ^ 63) :
    ((blocksOf r.bases).map fun blk => blk.store.layout.cellPrefix r.cell 4).sum = E.dofsPerCell := by
  rw [r.dofsPerCell_eq hwf]
  refine congrArg List.sum (List.map_congr_left fun blk hblk => ?_)
  obtain ⟨hS, hcell⟩ := r.mem_wellFormed hwf hblk
  rw [Store.dofsPerCell, (hS.layout_wf.exact (hcell ▸ hfit blk hblk)).2.1, hcell]

theorem sum_dofsPerFace_nonneg :
    0 ≤ ((blocksOf r.bases).map (·.store.layout.dofsPerFace)).sum :=
  List.sum_nonneg fun x hx => by
    obtain ⟨blk, hblk, rfl⟩ := List.mem_map.1 hx
    exact (r.mem_wellFormed hwf hblk).1.face_nonneg

/-- The blocks have no more face dofs than the composite has cell dofs. -/
theorem sum_dofsPerFace_le :
    ((blocksOf r.bases).map (·.store.layout.dofsPerFace)).sum ≤ E.dofsPerCell := by
  rw [r.dofsPerCell_eq hwf]
  exact List.sum_le_sum fun blk hblk => (r.mem_wellFormed hwf hblk).1.face_le_cell

/-- **The face dofs of a composite** are those of its blocks. The composite sums the blocks' counts
as machine words, so its face count only agrees with the blocks' modulo `2^64`; it is exact
because the blocks have no more face dofs than cell dofs, and the composite's cell dofs fit. -/
theorem dofsPerFace_eq :
    E.layout.dofsPerFace = ((blocksOf r.bases).map (·.store.layout.dofsPerFace)).sum := by
  obtain ⟨hw, -, hcount⟩ := r.layout_wf
  have hmod : r.layout.facePrefix r.cell 3 % 2 ^ 64 =
      ((blocksOf r.bases).map (·.store.layout.dofsPerFace)).sum % 2 ^ 64 := by
    calc r.layout.facePrefix r.cell 3 % 2 ^ 64
        = ((List.range 3).map fun j => (r.cell.objectsPerFace.getD j 0 : Int) *
            ((blocksOf r.bases).map (·.store.layout.countOf j)).sum).sum % 2 ^ 64 := by
          refine sum_emod_congr _ fun j _ => ?_
          -- a kind the faces have is one the cell has, where the count is the wrapped sum
          rcases Nat.lt_or_ge j r.cell.dim with hj | hj
          · rw [hcount j hj.le, Int.mul_emod, wrapWord_emod, ← Int.mul_emod]
          · rw [Hypercube.objectsPerFace_eq_zero hj]
            simp
      _ = ((blocksOf r.bases).map fun blk => blk.store.layout.facePrefix r.cell 3).sum % 2 ^ 64 := by
          rw [sum_kinds_sum_blocks _ fun blk j => blk.store.layout.countOf j]
          rfl
      _ = ((blocksOf r.bases).map (·.store.layout.dofsPerFace)).sum % 2 ^ 64 := by
          refine sum_emod_congr _ fun blk hblk => ?_
          obtain ⟨hS, hcell⟩ := r.mem_wellFormed hwf hblk
          rw [hS.layout_wf.dofsPerFace_eq, wrapWord_emod, hcell]
  -- the blocks' face dofs are at most their cell dofs, which fit a machine word
  have hle := r.sum_dofsPerFace_le hwf
  have hnonneg := r.sum_dofsPerFace_nonneg hwf
  have hlt := r.dofsPerCell_lt
  rw [r.layout_store, hw.dofsPerFace_eq, wrapWord_congr hmod, wrapWord_eq_self.2 ⟨by omega, by omega⟩]

end CompositeRun

end FiniteElements.Element
