import FiniteElements.Element.Composite
import FiniteElements.Proofs.Outcome
import FiniteElements.Proofs.Numeric.Word

/-!
# Dof layouts read off their counts

A dof layout built from per-object counts numbers the dofs of the cell object kind by object kind,
and every offset is the number of dofs on the kinds before it: `k` kinds in, the offset is the sum
over `k' < k` of (objects of kind `k'`) × (dofs per object of kind `k'`). The offsets are machine
integers, so each is that sum wrapped to a signed 64-bit word (`DofLayout.Wf`). When the whole
count of the cell fits a word, nothing wraps and every offset is the plain sum
(`DofLayout.Wf.exact`).

## Main definitions

* `DofLayout.cellPrefix`, `DofLayout.facePrefix`: the exact offsets.
* `DofLayout.Wf`: the equations a layout built from counts satisfies.

## Main results

* `DofLayout.wf_of_ofCounts?`: a layout built from counts satisfies them.
* `DofLayout.Wf.exact`: without overflow the offsets are the exact sums.
-/

namespace FiniteElements.Cell

set_option autoImplicit false

/-- The reference cell of a dimension has that dimension. -/
theorem Hypercube.dim_of_ofDim? {dim : Int} {c : Hypercube} (h : Hypercube.ofDim? dim = .ok c) :
    (c.dim : Int) = dim := by
  unfold Hypercube.ofDim? at h
  split_ifs at h <;> cases h <;> simp_all [Hypercube.dim]

end FiniteElements.Cell

namespace FiniteElements.Element

set_option autoImplicit false

open FiniteElements.Cell FiniteElements.Numeric

namespace DofLayout

/-- The exact first cell dof of object kind `k`: the dofs on all objects of the kinds before. -/
def cellPrefix (fd : DofLayout) (c : Hypercube) (k : Nat) : Int :=
  ((List.range k).map fun j => (c.objectsPerCell.getD j 0 : Int) * fd.countOf j).sum

/-- The exact first face dof of face object kind `k`. -/
def facePrefix (fd : DofLayout) (c : Hypercube) (k : Nat) : Int :=
  ((List.range k).map fun j => (c.objectsPerFace.getD j 0 : Int) * fd.countOf j).sum

/-- The equations a layout built from per-object counts satisfies on its reference cell: counts
are not negative, each offset is its exact value wrapped to a machine word, there is at least one
component and at least one dof. -/
structure Wf (fd : DofLayout) (c : Hypercube) : Prop where
  cell : Hypercube.ofDim? fd.dim = .ok c
  count_nonneg : ∀ k, 0 ≤ fd.countOf k
  firstOf_eq : ∀ k < 4, fd.firstOf k = wrapWord (fd.cellPrefix c k)
  dofsPerCell_eq : fd.dofsPerCell = wrapWord (fd.cellPrefix c 4)
  firstFaceOf_eq : ∀ k < 3, fd.firstFaceOf k = wrapWord (fd.facePrefix c k)
  dofsPerFace_eq : fd.dofsPerFace = wrapWord (fd.facePrefix c 3)
  components_pos : 1 ≤ fd.components
  dofsPerCell_pos : 1 ≤ fd.dofsPerCell

theorem firstNegative_eq_none {counts : List Int} (h : firstNegative counts = none) :
    ∀ x ∈ counts, 0 ≤ x := by
  intro x hx
  obtain ⟨i, hi, rfl⟩ := List.getElem_of_mem hx
  have hmem : (counts[i], i) ∈ counts.zipIdx := List.mem_zipIdx_iff_getElem?.2 (by simp)
  have := List.find?_eq_none.1 h _ hmem
  simpa using this

/-- The layout of counts satisfies the layout equations, and keeps the counts, components and
degree it was given. -/
theorem wf_of_ofCounts? {dim : Int} {counts : List Int} {components degree : Int}
    {fd : DofLayout} (h : ofCounts? dim counts components degree = .ok fd) :
    ∃ c, fd.Wf c ∧ fd.dim = dim ∧ counts.length = c.dim + 1 ∧
      (∀ k, fd.countOf k = counts.getD k 0) ∧ fd.components = components ∧
      fd.degree = degree := by
  unfold ofCounts? at h
  rw [bind_eq_ok] at h
  obtain ⟨c, hc, h⟩ := h
  have hcell : Hypercube.ofDim? dim = .ok c := mapError_eq_ok.1 hc
  have hdim := Hypercube.dim_of_ofDim? hcell
  dsimp only at h
  split at h
  · exact absurd h throw_bind_ne_ok
  rename_i hlen
  split at h
  · exact absurd h throw_bind_ne_ok
  rename_i hneg
  split at h
  · exact absurd h throw_bind_ne_ok
  rename_i hcomp
  split at h
  · exact absurd h throw_bind_ne_ok
  rename_i hdofs
  cases h
  have hlen : counts.length = c.dim + 1 := by simp at hlen; omega
  have hnonneg : ∀ x ∈ counts, 0 ≤ x := firstNegative_eq_none (by
    cases hf : firstNegative counts with
    | none => rfl
    | some p => exact absurd hf (hneg p.1 p.2))
  have hcount : ∀ k, ([counts.getD 0 0, counts.getD 1 0, counts.getD 2 0, counts.getD 3 0] :
      List Int).getD k 0 = counts.getD k 0 := by
    intro k
    have hsmall : counts.length ≤ 4 := by cases c <;> simp_all [Hypercube.dim]
    match k with
    | 0 | 1 | 2 | 3 => rfl
    | k + 4 =>
      simp [List.getD_eq_getElem?_getD, List.getElem?_eq_none (by omega : counts.length ≤ k + 4)]
  refine ⟨c, ⟨by simpa using hcell, ?_, ?_, ?_, ?_, ?_, ?_, ?_⟩, rfl, hlen, hcount, rfl, rfl⟩
  · intro k
    change 0 ≤ ([_, _, _, _] : List Int).getD k 0
    rw [hcount, List.getD_eq_getElem?_getD]
    cases hk : counts[k]? with
    | none => simp
    | some x => exact hnonneg x (List.mem_of_getElem? hk)
  · intro k hk
    interval_cases k <;>
      simp [DofLayout.firstOf, cellPrefix, countOf, allCounts, List.range_succ,
        wrapWord_add_wrapWord, Int.add_assoc, Hypercube.verticesPerCell, Hypercube.linesPerCell,
        Hypercube.quadsPerCell]
  · simp [cellPrefix, countOf, allCounts, List.range_succ, wrapWord_add_wrapWord, Int.add_assoc,
      Hypercube.verticesPerCell, Hypercube.linesPerCell, Hypercube.quadsPerCell,
      Hypercube.hexesPerCell]
  · intro k hk
    interval_cases k <;>
      simp [DofLayout.firstFaceOf, facePrefix, countOf, allCounts, List.range_succ,
        wrapWord_add_wrapWord, Hypercube.verticesPerFace, Hypercube.linesPerFace]
  · simp [facePrefix, countOf, allCounts, List.range_succ, wrapWord_add_wrapWord, Int.add_assoc,
      Hypercube.verticesPerFace, Hypercube.linesPerFace, Hypercube.quadsPerFace]
  · simpa using hcomp
  · simpa using hdofs

theorem cellPrefix_succ (fd : DofLayout) (c : Hypercube) (k : Nat) :
    fd.cellPrefix c (k + 1) = fd.cellPrefix c k + (c.objectsPerCell.getD k 0 : Int) * fd.countOf k := by
  simp [cellPrefix, List.range_succ]

theorem facePrefix_succ (fd : DofLayout) (c : Hypercube) (k : Nat) :
    fd.facePrefix c (k + 1) = fd.facePrefix c k + (c.objectsPerFace.getD k 0 : Int) * fd.countOf k := by
  simp [facePrefix, List.range_succ]

/-- A face has no more objects of a kind than the cell. -/
theorem objectsPerFace_le (c : Hypercube) (k : Nat) :
    c.objectsPerFace.getD k 0 ≤ c.objectsPerCell.getD k 0 := by
  match k with
  | 0 | 1 | 2 | 3 => cases c <;> decide
  | k + 4 => cases c <;> simp [Hypercube.objectsPerFace, Hypercube.objectsPerCell]

/-- Past the cell's dimension there are no objects, so the offsets stop growing. -/
theorem cellPrefix_dim_succ (fd : DofLayout) (c : Hypercube) :
    fd.cellPrefix c (c.dim + 1) = fd.cellPrefix c 4 := by
  cases c <;> simp [cellPrefix, List.range_succ, Hypercube.dim, Hypercube.objectsPerCell]

theorem facePrefix_dim (fd : DofLayout) (c : Hypercube) :
    fd.facePrefix c c.dim = fd.facePrefix c 3 := by
  cases c <;> simp [facePrefix, List.range_succ, Hypercube.dim, Hypercube.objectsPerFace]

section Monotone

variable {fd : DofLayout} {c : Hypercube} (hn : ∀ k, 0 ≤ fd.countOf k)
include hn

theorem cellPrefix_mono {k k' : Nat} (h : k ≤ k') : fd.cellPrefix c k ≤ fd.cellPrefix c k' := by
  induction k', h using Nat.le_induction with
  | base => exact le_rfl
  | succ k' _ ih =>
    rw [cellPrefix_succ]
    have := Int.mul_nonneg (Int.natCast_nonneg (c.objectsPerCell.getD k' 0)) (hn k')
    omega

theorem cellPrefix_nonneg (k : Nat) : 0 ≤ fd.cellPrefix c k :=
  cellPrefix_mono hn (Nat.zero_le k)

theorem facePrefix_mono {k k' : Nat} (h : k ≤ k') : fd.facePrefix c k ≤ fd.facePrefix c k' := by
  induction k', h using Nat.le_induction with
  | base => exact le_rfl
  | succ k' _ ih =>
    rw [facePrefix_succ]
    have := Int.mul_nonneg (Int.natCast_nonneg (c.objectsPerFace.getD k' 0)) (hn k')
    omega

theorem facePrefix_le_cellPrefix (k : Nat) : fd.facePrefix c k ≤ fd.cellPrefix c k := by
  induction k with
  | zero => simp [facePrefix, cellPrefix]
  | succ k ih =>
    rw [facePrefix_succ, cellPrefix_succ]
    have := Int.mul_le_mul_of_nonneg_right (Int.ofNat_le.2 (objectsPerFace_le c k)) (hn k)
    omega

theorem facePrefix_nonneg (k : Nat) : 0 ≤ fd.facePrefix c k := by
  induction k with
  | zero => simp [facePrefix]
  | succ k ih =>
    rw [facePrefix_succ]
    have := Int.mul_nonneg (Int.natCast_nonneg (c.objectsPerFace.getD k 0)) (hn k)
    omega

end Monotone

/-- **Without overflow the offsets are exact.** When the dofs of the cell, counted exactly, fit a
machine word, every offset of a layout built from counts is its exact value. -/
theorem Wf.exact {fd : DofLayout} {c : Hypercube} (hw : fd.Wf c) (h : fd.cellPrefix c 4 < 2 ^ 63) :
    (∀ k < 4, fd.firstOf k = fd.cellPrefix c k) ∧ fd.dofsPerCell = fd.cellPrefix c 4 ∧
      (∀ k < 3, fd.firstFaceOf k = fd.facePrefix c k) ∧ fd.dofsPerFace = fd.facePrefix c 3 := by
  have small : ∀ x, 0 ≤ x → x ≤ fd.cellPrefix c 4 → wrapWord x = x := fun x h0 h1 =>
    wrapWord_eq_self.2 ⟨by omega, by omega⟩
  have hface (k : Nat) (hk : k ≤ 4) : fd.facePrefix c k ≤ fd.cellPrefix c 4 :=
    (facePrefix_le_cellPrefix hw.count_nonneg k).trans (cellPrefix_mono hw.count_nonneg hk)
  refine ⟨fun k hk => ?_, ?_, fun k hk => ?_, ?_⟩
  · rw [hw.firstOf_eq k hk, small _ (cellPrefix_nonneg hw.count_nonneg k)
      (cellPrefix_mono hw.count_nonneg hk.le)]
  · rw [hw.dofsPerCell_eq, small _ (cellPrefix_nonneg hw.count_nonneg 4) le_rfl]
  · rw [hw.firstFaceOf_eq k hk, small _ (facePrefix_nonneg hw.count_nonneg k) (hface k (by omega))]
  · rw [hw.dofsPerFace_eq, small _ (facePrefix_nonneg hw.count_nonneg 3) (hface 3 (by omega))]

end DofLayout

end FiniteElements.Element
