import FiniteElements.Proofs.Composite.Counting

/-!
# Offsets of a layout read off its counts

`DofLayout.ofCounts?` numbers the dofs of the cell object kind by object kind, so each offset it
stores is the sum, over the kinds before it, of the objects of that kind times the dofs on each.
It adds these sums as machine words and checks only that the cell keeps at least one dof. When
the dofs of the cell, counted exactly, fit a word, nothing wraps: the cell and face dofs are the
exact sums over all kinds, each offset is the one before it plus the dofs of its kind, and the
offsets increase through the cell and through a face (`DofLayout.ofCounts?_offsets`). Past that
a sum wraps unnoticed: `2^61` dofs on each vertex of the cube and one inside it make a layout of
one dof (`DofLayout.wrappedCube_dofsPerCell`).

## Main definitions

* `DofLayout.cellDofsOf`, `DofLayout.faceDofsOf`: the exact counts.
* `DofLayout.ExactOffsets`: offsets that are the exact sums.

## Main results

* `DofLayout.firstObjectIndex_of_lt`, `DofLayout.firstFaceObjectIndex_of_lt`
* `DofLayout.ofCounts?_offsets`
-/

namespace FiniteElements.Element

set_option autoImplicit false

open FiniteElements.Cell

namespace DofLayout

/-- The first cell dof of every object kind is its offset. -/
theorem firstObjectIndex_of_lt (fd : DofLayout) {k : Nat} (hk : k < 4) :
    fd.firstObjectIndex k = .ok (fd.firstOf k) := by
  interval_cases k <;> rfl

/-- The first face dof of every face object kind is its offset. -/
theorem firstFaceObjectIndex_of_lt (fd : DofLayout) {k : Nat} (hk : k < 3) :
    fd.firstFaceObjectIndex k = .ok (fd.firstFaceOf k) := by
  interval_cases k <;> rfl

/-- The face of a cell has no objects of the cell's own dimension. -/
theorem facePrefix_dim_succ (fd : DofLayout) (c : Hypercube) :
    fd.facePrefix c (c.dim + 1) = fd.facePrefix c 3 := by
  rw [facePrefix_succ, Hypercube.objectsPerFace_eq_zero le_rfl, facePrefix_dim]
  simp

/-- The dofs on all objects of a cell with these per-object counts, counted exactly:
`Σ_k (objects of kind k) · counts[k]`. -/
def cellDofsOf (c : Hypercube) (counts : List Int) : Int :=
  ((List.range (c.dim + 1)).map fun k => (c.objectsPerCell.getD k 0 : Int) * counts.getD k 0).sum

/-- The dofs on all objects of a face of the cell, counted exactly. -/
def faceDofsOf (c : Hypercube) (counts : List Int) : Int :=
  ((List.range (c.dim + 1)).map fun k => (c.objectsPerFace.getD k 0 : Int) * counts.getD k 0).sum

/-- The offsets of a layout on cell `c` are the exact sums of the per-object counts `counts`. -/
structure ExactOffsets (fd : DofLayout) (c : Hypercube) (counts : List Int) : Prop where
  dofsPerCell_eq : fd.dofsPerCell = cellDofsOf c counts
  dofsPerFace_eq : fd.dofsPerFace = faceDofsOf c counts
  firstObjectIndex_succ : ∀ k < c.dim, fd.firstObjectIndex (k + 1) =
    (· + (c.objectsPerCell.getD k 0 : Int) * counts.getD k 0) <$> fd.firstObjectIndex k
  firstFaceObjectIndex_succ : ∀ k, k + 1 < c.dim → fd.firstFaceObjectIndex (k + 1) =
    (· + (c.objectsPerFace.getD k 0 : Int) * counts.getD k 0) <$> fd.firstFaceObjectIndex k
  cell_increasing : 0 ≤ fd.firstLineIndex ∧ fd.firstLineIndex ≤ fd.firstQuadIndex ∧
    fd.firstQuadIndex ≤ fd.firstHexIndex ∧ fd.firstHexIndex ≤ fd.dofsPerCell
  face_increasing : 0 ≤ fd.firstFaceLineIndex ∧ fd.firstFaceLineIndex ≤ fd.firstFaceQuadIndex ∧
    fd.firstFaceQuadIndex ≤ fd.dofsPerFace ∧ fd.dofsPerFace ≤ fd.dofsPerCell

/-- **The offsets of a layout from counts are exact sums while the cell's dofs fit a word.** If
the dofs of the cell, counted exactly from the per-object counts, are fewer than `2^63`, then the
cell and face dofs are those exact counts, the first dof of each object kind is that of the kind
before plus the dofs of that kind, and the offsets increase from `0` through the cell and through
a face, whose dofs are no more than the cell's. -/
theorem ofCounts?_offsets {dim components degree : Int} {counts : List Int} {fd : DofLayout}
    (h : ofCounts? dim counts components degree = .ok fd) {c : Hypercube}
    (hc : Hypercube.ofDim? dim = .ok c) (hfit : cellDofsOf c counts < 2 ^ 63) :
    fd.ExactOffsets c counts := by
  obtain ⟨c', hw, hdim, -, hcount, -, -⟩ := wf_of_ofCounts? h
  have hcc : c' = c := by
    have := hw.cell
    rw [hdim, hc] at this
    exact (Except.ok.inj this).symm
  subst hcc
  -- the layout's own counts are the given ones
  have hcell : fd.cellPrefix c' (c'.dim + 1) = cellDofsOf c' counts := by
    simp only [cellPrefix, cellDofsOf, hcount]
  have hface : fd.facePrefix c' (c'.dim + 1) = faceDofsOf c' counts := by
    simp only [facePrefix, faceDofsOf, hcount]
  obtain ⟨hfirst, hcells, hfirstFace, hfaces⟩ := hw.exact (by rwa [← cellPrefix_dim_succ, hcell])
  have hn := hw.count_nonneg
  have hdim3 := Hypercube.dim_le c'
  have hline : fd.firstLineIndex = fd.cellPrefix c' 1 := hfirst 1 (by omega)
  have hquad : fd.firstQuadIndex = fd.cellPrefix c' 2 := hfirst 2 (by omega)
  have hhex : fd.firstHexIndex = fd.cellPrefix c' 3 := hfirst 3 (by omega)
  have hfline : fd.firstFaceLineIndex = fd.facePrefix c' 1 := hfirstFace 1 (by omega)
  have hfquad : fd.firstFaceQuadIndex = fd.facePrefix c' 2 := hfirstFace 2 (by omega)
  refine ⟨by rw [hcells, ← cellPrefix_dim_succ, hcell], by rw [hfaces, ← facePrefix_dim_succ, hface],
    fun k hk => ?_, fun k hk => ?_, ?_, ?_⟩
  · rw [← Nat.cast_succ, firstObjectIndex_of_lt fd (by omega), firstObjectIndex_of_lt fd (by omega),
      hfirst k (by omega), hfirst (k + 1) (by omega), cellPrefix_succ, hcount]
    rfl
  · rw [← Nat.cast_succ, firstFaceObjectIndex_of_lt fd (by omega),
      firstFaceObjectIndex_of_lt fd (by omega),
      hfirstFace k (by omega), hfirstFace (k + 1) (by omega), facePrefix_succ, hcount]
    rfl
  · rw [hline, hquad, hhex, hcells]
    exact ⟨cellPrefix_nonneg hn 1, cellPrefix_mono hn (by omega), cellPrefix_mono hn (by omega),
      cellPrefix_mono hn (by omega)⟩
  · rw [hfline, hfquad, hfaces, hcells]
    exact ⟨facePrefix_nonneg hn 1, facePrefix_mono hn (by omega), facePrefix_mono hn (by omega),
      (facePrefix_le_cellPrefix hn 3).trans (cellPrefix_mono hn (by omega))⟩

/-- The layout of one dof on each vertex, two on each line, three on each quadrilateral and four
inside the cube. -/
def cubeCountsLayout : DofLayout := okValue (ofCounts? 3 [1, 2, 3, 4] 1 2)

theorem cubeCounts_offsets :
    ofCounts? 3 [1, 2, 3, 4] 1 2 = .ok cubeCountsLayout ∧ Hypercube.ofDim? 3 = .ok .cube ∧
      cellDofsOf .cube [1, 2, 3, 4] < 2 ^ 63 ∧ cubeCountsLayout.ExactOffsets .cube [1, 2, 3, 4] := by
  have h : ofCounts? 3 [1, 2, 3, 4] 1 2 = .ok cubeCountsLayout := eq_ok_okValue (by decide)
  have hfit : cellDofsOf .cube [1, 2, 3, 4] < 2 ^ 63 := by decide
  exact ⟨h, rfl, hfit, ofCounts?_offsets h rfl hfit⟩

/-- The layout of `2^61` dofs on each vertex of the cube and one inside it. -/
def wrappedCubeLayout : DofLayout := okValue (ofCounts? 3 [2 ^ 61, 0, 0, 1] 1 0)

/-- **A layout from counts whose offsets wrap.** With `2^61` dofs on each of the eight vertices
of the cube and one inside it, the cell has `2^64 + 1` dofs, which wrap as a machine word to the
one dof the layout is built with. -/
theorem wrappedCube_dofsPerCell :
    ofCounts? 3 [2 ^ 61, 0, 0, 1] 1 0 = .ok wrappedCubeLayout ∧
      wrappedCubeLayout.dofsPerCell = 1 ∧ cellDofsOf .cube [2 ^ 61, 0, 0, 1] = 2 ^ 64 + 1 :=
  ⟨eq_ok_okValue (by decide), by decide, by decide⟩

end DofLayout

end FiniteElements.Element
