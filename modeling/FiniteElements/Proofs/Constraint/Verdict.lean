import FiniteElements.Proofs.Constraint.Adding
import FiniteElements.Proofs.Element.SharedLines

/-!
# The verdict of the consistency check

`consistentAlongLines` checks the interface constraints of a 3D layout by reading the refined
rows of each face line into one constraint set. The set compares sums started from `+0`. This
file reads the verdict back as a condition on the matrix entries themselves (`LinesEqual`):
every refined row of a face line is zero off the line's columns, and on the lines after the
first it has the first line's weights, under IEEE `==`. So a `NaN` on a line row is always
refused, and `-0` equals `0` (`weightsAgree_zero_add_iff`).

The check never stops on a matrix of the layout's constraint size. That needs two things: the
layout's counts fit a machine word, and the matrix fits the memory a heap can address
(`Matrix.Addressable`), so the lists of a line's rows and columns can be allocated. Each
failure is then a reported error of the inconsistent-constraint class: one way a face line, a
row, an `agrees` loop or `addLine` can fail, one lemma each
(`kind_of_agrees_eq_error`, `reports_of_localRow_eq_error`, `reports_of_addFaceLine_eq_error`).

## Main definitions

* `FiniteElements.Dense.Matrix.Addressable`
* `FiniteElements.Constraint.LinesEqual`

## Main results

* `weightsAgree_zero_add_iff`, `linesAgree_iff_linesEqual`
* `reports_of_consistentAlongLines_eq_error`
* `consistentAlongLines_verdict`
-/

namespace FiniteElements.Dense.Matrix

/-- The entries of a matrix fit the `2^48` bytes a heap can address, 8 bytes each: so does every
matrix the program can hold. -/
def Addressable (C : Matrix) : Prop := C.rows * C.cols ≤ 2 ^ 45

instance (C : Matrix) : Decidable C.Addressable :=
  inferInstanceAs (Decidable (C.rows * C.cols ≤ 2 ^ 45))

end FiniteElements.Dense.Matrix

namespace FiniteElements.Constraint

set_option autoImplicit false

open FiniteElements.Cell FiniteElements.Element FiniteElements.Dense FiniteElements.Numeric

section Weights

/-- Two weights match exactly when they are IEEE-equal. -/
theorem weightsMatch_iff {x y : Float} : WeightsMatch x y ↔ (x == y) = true := by
  constructor
  · rintro ⟨hnz, hbeq⟩
    cases hx : (x != 0)
    · -- both are zeros, of either sign
      have hx0 : (x == 0) = true := by simpa [bne] using hx
      have hy0 : (y == 0) = true := by
        rw [hx] at hnz
        simpa [bne] using hnz.symm
      exact float_beq_trans hx0 (float_beq_symm hy0)
    · exact hbeq hx
  · intro h
    refine ⟨?_, fun _ => h⟩
    simp only [bne, float_beq_zero_of_beq h]

/-- **The set accepts a weight given again exactly when it is IEEE-equal to the first.** Both are
summed from `+0`, which turns `-0` into `0` and keeps every other double. -/
theorem weightsAgree_zero_add_iff {x y : Float} : WeightsAgree (0 + x) (0 + y) ↔ (y == x) = true := by
  constructor
  · intro h
    rw [float_beq_comm]
    exact weightsMatch_iff.1 (WeightsAgree.weightsMatch h)
  · intro h
    refine ⟨fun _ => by simp [bne, zero_add_beq_zero_add, h], fun hy => ?_⟩
    rw [zero_add_bne_zero] at hy ⊢
    simpa [bne, float_beq_zero_of_beq h] using hy

end Weights

/-- **Consistency along face lines, entry by entry.** On every face line each refined row has an
IEEE zero at every column off the line, and on the lines after the first its weight at each
coarse dof of the line is IEEE-equal to the first line's. -/
structure LinesEqual (C : Matrix) (dv dl : Nat) : Prop where
  offLine : ∀ l < 4, ∀ k < dv + 2 * dl, ∀ col < C.cols, (∀ p < 2 * dv + dl, lineColumn dv dl l p ≠ col) →
    (C.get (lineRow dv dl l k) col == 0) = true
  equal : ∀ l, 1 ≤ l → l < 4 → ∀ k < dv + 2 * dl, ∀ p < 2 * dv + dl,
    (C.get (lineRow dv dl l k) (lineColumn dv dl l p) ==
      C.get (lineRow dv dl 0 k) (lineColumn dv dl 0 p)) = true

/-- The weights the set compares agree exactly when the entries are equal. -/
theorem linesAgree_iff_linesEqual {C : Matrix} {dv dl : Nat} :
    LinesAgree C dv dl ↔ LinesEqual C dv dl := by
  have hoff : ∀ row col, (C.get row col != 0) = false ↔ (C.get row col == 0) = true := by
    simp [bne]
  constructor
  · rintro ⟨hon, hagree⟩
    exact ⟨fun l hl k hk col hcol hline => (hoff _ _).1 (hon l hl k hk col hcol hline),
      fun l h₁ hl k hk p hp => weightsAgree_zero_add_iff.1 (hagree l h₁ hl k hk p hp)⟩
  · rintro ⟨hon, hequal⟩
    exact ⟨fun l hl k hk col hcol hline => (hoff _ _).2 (hon l hl k hk col hcol hline),
      fun l h₁ hl k hk p hp => weightsAgree_zero_add_iff.2 (hequal l h₁ hl k hk p hp)⟩

section Failures

/-- Comparing a line given again fails only at a differing or a missing weight. -/
theorem kind_of_agrees_eq_error {row : Nat} {stored given : List (Nat × Float)} {e : ElementError}
    (h : ConstraintSet.agrees row stored given = .error e) :
    e.kind = some .inconsistentConstraint := by
  unfold ConstraintSet.agrees at h
  -- the first loop fails only at a differing stored weight, the second at a missing one
  rcases bind_eq_error.1 h with h | ⟨_, -, h⟩
  · obtain ⟨⟨c, w⟩, -, hx⟩ := exists_of_forIn_unit_eq_error h
    dsimp only at hx
    split_ifs at hx <;>
      simp [throw, throwThe, MonadExceptOf.throw, bind, Except.bind, pure, Except.pure] at hx
    rw [← hx]
    rfl
  · rcases bind_eq_error.1 h with h | ⟨_, -, h⟩
    · obtain ⟨⟨c, w⟩, -, hx⟩ := exists_of_forIn_unit_eq_error h
      dsimp only at hx
      split_ifs at hx <;>
        simp [throw, throwThe, MonadExceptOf.throw, bind, Except.bind, pure, Except.pure] at hx
      rw [← hx]
      rfl
    · cases h

/-- Adding a row read at positions `0 … W - 1`, in range of the set, fails only as comparing it
does. -/
theorem kind_of_addLine_range_eq_error {cs : ConstraintSet} {k W : Nat} {v : Nat → Float}
    {e : ElementError} (hk : (k : Int) < cs.rows) (hW : (W : Int) ≤ cs.cols)
    (h : cs.addLine k ((List.range W).map fun (p : Nat) => (p : Int)) ((List.range W).map v) =
      .error e) :
    e.kind = some .inconsistentConstraint := by
  unfold ConstraintSet.addLine at h
  rw [sums_range cs v hW, if_neg (by omega)] at h
  simp only [Int.toNat_natCast] at h
  cases hf : cs.find? k with
  | none => simp [hf, pure, Except.pure, bind, Except.bind] at h
  | some stored =>
    simp only [hf, bind, Except.bind] at h
    split at h
    · cases h
      exact kind_of_agrees_eq_error ‹_›
    · cases h

/-- Reading a row of the matrix along a line fails only at a nonzero weight off the line. -/
theorem reports_of_localRow_eq_error {C : Matrix} {W : Nat} {Q : Nat → Nat} {l row : Nat}
    {f : Failure} (hne : C.isEmpty = false) (hrow : row < C.rows)
    (h : localRow C ((List.range W).map fun p => (Q p : Int)) W l row = .error f) :
    ∃ e, f = .reported e ∧ e.kind = some .inconsistentConstraint := by
  unfold localRow at h
  obtain ⟨acc, -, col, hcol, hstep⟩ :=
    exists_of_foldlM_eq_error (fun _ => True) (fun _ _ _ _ _ => trivial) trivial h
  rw [Matrix.entry_of_lt hne hrow (List.mem_range.1 hcol)] at hstep
  simp only [liftMatrix, Except.mapError, bind, Except.bind] at hstep
  cases hlc : localColumn ((List.range W).map fun p => (Q p : Int)) col with
  | none =>
    rw [hlc] at hstep
    split_ifs at hstep
    · cases hstep
      exact ⟨_, rfl, rfl⟩
    · cases hstep
  | some lc =>
    have hlt := (localColumn_range_eq_some hlc).1
    rw [hlc] at hstep
    simp [hlt, pure, Except.pure] at hstep

end Failures

section FaceLines

variable {C : Matrix}

/-- One refined row of a face line read into the set, as `addFaceLine` reads each. -/
def readLineRow (C : Matrix) (cols : List Int) (width : Int) (l : Nat) (cs : ConstraintSet)
    (p : Int × Nat) : Outcome ConstraintSet := do
  let (idx, ws) ← localRow C cols width l p.1
  match cs.addLine p.2 idx ws with
  | .ok cs => pure cs
  | .error e => report (.onFaceLine l p.1 e)

/-- With room for its lists, reading a face line reads its refined rows one by one. -/
theorem addFaceLine_eq_foldlM {dv dl : Int} {cs : ConstraintSet} {l : Nat}
    (h₁ : roomFits (wrapWord (dv + 2 * dl)) = true) (h₂ : roomFits (wrapWord (2 * dv + dl)) = true) :
    addFaceLine C dv dl cs l = (lineRows dv dl l).zipIdx.foldlM
      (readLineRow C (lineColumns dv dl l) (wrapWord (2 * dv + dl)) l) cs := by
  unfold addFaceLine
  rw [if_neg (by simp [h₁]), if_neg (by simp [h₂])]
  rfl

/-- Reading a row keeps the index space of the set. -/
theorem readLineRow_shape {cols : List Int} {width : Int} {l : Nat} {cs S : ConstraintSet}
    {p : Int × Nat} (h : readLineRow C cols width l cs p = .ok S) :
    S.rows = cs.rows ∧ S.cols = cs.cols := by
  obtain ⟨⟨idx, ws⟩, -, h⟩ := bind_eq_ok.1 h
  dsimp only at h
  split at h
  · rename_i hadd
    cases h
    exact ⟨ConstraintSet.addLine_rows hadd, ConstraintSet.addLine_cols hadd⟩
  · cases h

/-- Reading a face line keeps the index space of the set. -/
theorem addFaceLine_shape {dv dl : Int} {cs S : ConstraintSet} {l : Nat}
    (h : addFaceLine C dv dl cs l = .ok S) : S.rows = cs.rows ∧ S.cols = cs.cols := by
  -- a line without room for its lists is never read
  by_cases h₁ : roomFits (wrapWord (dv + 2 * dl)) = true
  swap
  · simp [addFaceLine, h₁, liftFault, Except.mapError, bind, Except.bind] at h
  by_cases h₂ : roomFits (wrapWord (2 * dv + dl)) = true
  swap
  · simp [addFaceLine, h₁, h₂, liftFault, Except.mapError, bind, Except.bind] at h
  rw [addFaceLine_eq_foldlM h₁ h₂] at h
  refine foldlM_invariant (fun acc => acc.rows = cs.rows ∧ acc.cols = cs.cols)
    (fun acc p b hI hb => ?_) ⟨rfl, rfl⟩ h
  obtain ⟨hr, hc⟩ := readLineRow_shape hb
  exact ⟨hr.trans hI.1, hc.trans hI.2⟩

variable {dv dl : Nat}

theorem LineRoom.wrapWord_height (hroom : LineRoom dv dl) :
    wrapWord ((dv : Int) + 2 * dl) = ((dv + 2 * dl : Nat) : Int) := by
  unfold LineRoom at hroom
  rw [wrapWord_eq_self.2 ⟨by omega, by omega⟩]
  push_cast
  ring

theorem LineRoom.wrapWord_width (hroom : LineRoom dv dl) :
    wrapWord (2 * (dv : Int) + dl) = ((2 * dv + dl : Nat) : Int) := by
  unfold LineRoom at hroom
  rw [wrapWord_eq_self.2 ⟨by omega, by omega⟩]
  push_cast
  ring

/-- With room, both lists of a face line are allocated. -/
theorem LineRoom.roomFits_eq_true (hroom : LineRoom dv dl) :
    roomFits (wrapWord ((dv : Int) + 2 * dl)) = true ∧
      roomFits (wrapWord (2 * (dv : Int) + dl)) = true := by
  rw [hroom.wrapWord_height, hroom.wrapWord_width]
  unfold LineRoom at hroom
  simp [roomFits, maxWords]
  omega

/-- **Reading a face line fails only at an inconsistency**, when its rows lie in the matrix, its
lists have room, and the set is over the line's refined and coarse dofs. -/
theorem reports_of_addFaceLine_eq_error {cs : ConstraintSet} {l : Nat} {f : Failure} (hl : l < 4)
    (hne : C.isEmpty = false) (hrows : 5 * dv + 12 * dl ≤ C.rows)
    (hcols : 4 * dv + 4 * dl ≤ C.cols) (hroom : LineRoom dv dl)
    (hH : cs.rows = (dv + 2 * dl : Nat)) (hW : cs.cols = (2 * dv + dl : Nat))
    (h : addFaceLine C dv dl cs l = .error f) :
    ∃ e, f = .reported e ∧ e.kind = some .inconsistentConstraint := by
  rw [addFaceLine_eq_foldlM hroom.roomFits_eq_true.1 hroom.roomFits_eq_true.2,
    hroom.wrapWord_width, lineRows_eq, lineColumns_eq] at h
  obtain ⟨acc, ⟨hr, hc⟩, ⟨row, k⟩, hmem, hstep⟩ :=
    exists_of_foldlM_eq_error (fun acc => acc.rows = cs.rows ∧ acc.cols = cs.cols)
      (fun acc p b hI hb => by
        obtain ⟨hr, hc⟩ := readLineRow_shape hb
        exact ⟨hr.trans hI.1, hc.trans hI.2⟩) ⟨rfl, rfl⟩ h
  -- the failing step reads refined row `k` of the line
  obtain ⟨hk, rfl⟩ := mem_zipIdx_map_range hmem
  have hrowlt : lineRow dv dl l k < C.rows := Nat.lt_of_lt_of_le (lineRow_lt hl hk) hrows
  rcases bind_eq_error.1 hstep with hread | ⟨r, hread, hadd⟩
  · exact reports_of_localRow_eq_error hne hrowlt hread
  · obtain ⟨-, rfl⟩ := (localRow_eq_ok hne hrowlt
      (fun p hp => Nat.lt_of_lt_of_le (lineColumn_lt hl hp) hcols)
      (fun p hp q hq => lineColumn_inj hl hp hq)).1 hread
    dsimp only at hadd
    split at hadd
    · cases hadd
    · rename_i e he
      cases hadd
      -- the set's complaint is passed on with the line and the row
      have hkind := kind_of_addLine_range_eq_error (by omega) (by omega) he
      exact ⟨_, rfl, hkind⟩

/-- **The check fails only at an inconsistency**, on a nonempty matrix whose line rows and
columns lie in it and whose face lines have room for their lists. -/
theorem reports_of_consistentAlongLines_eq_error {fd : DofLayout} (hne : C.isEmpty = false)
    (hv : fd.dofsPerVertex = dv) (hl : fd.dofsPerLine = dl) (hrows : 5 * dv + 12 * dl ≤ C.rows)
    (hcols : 4 * dv + 4 * dl ≤ C.cols) (hroom : LineRoom dv dl) {f : Failure}
    (h : consistentAlongLines fd C = .error f) :
    ∃ e, f = .reported e ∧ e.kind = some .inconsistentConstraint := by
  unfold consistentAlongLines at h
  by_cases h3 : fd.dim = 3
  swap
  · simp [h3, pure, Except.pure] at h
  simp only [h3, hne, hv, hl, bne_self_eq_false, Bool.or_false, Bool.false_eq_true, if_false] at h
  rw [hroom.wrapWord_height, hroom.wrapWord_width] at h
  rcases bind_eq_error.1 h with h | ⟨_, -, h⟩
  · -- the set stays over the line's refined and coarse dofs from one face line to the next
    obtain ⟨acc, ⟨hr, hc⟩, l, hl4, hstep⟩ := exists_of_foldlM_eq_error
      (fun acc : ConstraintSet =>
        acc.rows = ((dv + 2 * dl : Nat) : Int) ∧ acc.cols = ((2 * dv + dl : Nat) : Int))
      (fun acc l b hI hb => by
        obtain ⟨hr, hc⟩ := addFaceLine_shape hb
        exact ⟨hr.trans hI.1, hc.trans hI.2⟩) ⟨rfl, rfl⟩ h
    exact reports_of_addFaceLine_eq_error (List.mem_range.1 hl4) hne hrows hcols hroom hr hc hstep
  · cases h

end FaceLines

/-- **The check on a matrix of the constraint size.** On a 3D layout whose counts fit a machine
word, a matrix of its constraint size that fits the heap passes exactly when the entries agree
along the face lines, and fails only at an inconsistency. -/
theorem consistentAlongLines_of_size {C : Matrix} {fd : DofLayout} (hw : fd.Wf .cube)
    (hfit : fd.cellPrefix .cube 4 < 2 ^ 63) (hrows : (C.rows : Int) = fd.constraintsSize.1)
    (hcols : (C.cols : Int) = fd.constraintsSize.2) (haddr : C.Addressable) :
    (consistentAlongLines fd C = .ok () ↔
        LinesEqual C fd.dofsPerVertex.toNat fd.dofsPerLine.toNat) ∧
      ∀ f, consistentAlongLines fd C = .error f →
        ∃ e, f = .reported e ∧ e.kind = some .inconsistentConstraint := by
  have h3 : fd.dim = 3 := by
    have := Hypercube.dim_of_ofDim? hw.cell
    simpa [Hypercube.dim] using this.symm
  have hsize := constraintsSize_eq hw hfit
  dsimp only at hsize
  rw [hsize] at hrows hcols
  have h0 := hw.count_nonneg 0
  have h1 := hw.count_nonneg 1
  have h2 := hw.count_nonneg 2
  have hv : fd.dofsPerVertex = (fd.dofsPerVertex.toNat : Int) := (Int.toNat_of_nonneg h0).symm
  have hl : fd.dofsPerLine = (fd.dofsPerLine.toNat : Int) := (Int.toNat_of_nonneg h1).symm
  have hv0 : fd.countOf 0 = fd.dofsPerVertex := rfl
  have hl0 : fd.countOf 1 = fd.dofsPerLine := rfl
  by_cases hne : C.isEmpty = true
  · -- an empty matrix of the constraint size means no vertex and no line dofs
    have hzero : fd.dofsPerVertex.toNat = 0 ∧ fd.dofsPerLine.toNat = 0 := by
      simp only [Matrix.isEmpty, Bool.or_eq_true, beq_iff_eq] at hne
      omega
    rw [consistentAlongLines_of_isEmpty hne, hzero.1, hzero.2]
    exact ⟨iff_of_true rfl ⟨fun _ _ k hk => absurd hk (by omega),
      fun _ _ _ k hk => absurd hk (by omega)⟩, fun f hf => by cases hf⟩
  have hne' : C.isEmpty = false := by simpa using hne
  -- a matrix on the heap has at most `2^45` rows, and a line's lists are shorter
  have hroom : LineRoom fd.dofsPerVertex.toNat fd.dofsPerLine.toNat := by
    have hcol : 0 < C.cols := by
      simp only [Matrix.isEmpty, Bool.or_eq_false_iff, beq_eq_false_iff_ne] at hne'
      omega
    have hrow : C.rows ≤ 2 ^ 45 := (Nat.le_mul_of_pos_right C.rows hcol).trans haddr
    unfold LineRoom
    omega
  have hroom' := hroom
  unfold LineRoom at hroom'
  refine ⟨?_, fun f hf =>
    reports_of_consistentAlongLines_eq_error hne' hv hl (by omega) (by omega) hroom hf⟩
  rw [consistentAlongLines_eq_ok h3 hne' hv hl (by omega) (by omega) (by omega),
    ← linesAgree_iff_linesEqual]
  exact and_iff_right hroom

/-- **The verdict of the consistency check.** On a layout of counts, the check passes a layout
that is not 3D and an empty matrix. A 3D layout whose counts fit a machine word and a matrix of
its constraint size that fits the heap pass exactly when the entries agree along the face lines
under IEEE `==`. Otherwise the check reports an inconsistent constraint: it never stops. -/
theorem consistentAlongLines_verdict {dim degree components : Int} {counts : List Int}
    {fd : DofLayout} (hfd : DofLayout.ofCounts? dim counts components degree = .ok fd)
    (C : Matrix) :
    (fd.dim ≠ 3 ∨ C.isEmpty = true → consistentAlongLines fd C = .ok ()) ∧
    (fd.dim = 3 → fd.cellPrefix .cube 4 < 2 ^ 63 → (C.rows : Int) = fd.constraintsSize.1 →
      (C.cols : Int) = fd.constraintsSize.2 → C.Addressable →
      (consistentAlongLines fd C = .ok () ↔
        LinesEqual C fd.dofsPerVertex.toNat fd.dofsPerLine.toNat) ∧
      ∀ f, consistentAlongLines fd C = .error f →
        ∃ e, f = .reported e ∧ e.kind = some .inconsistentConstraint) := by
  refine ⟨fun h => ?_, fun h3 hfit hrows hcols haddr => ?_⟩
  · rcases h with h | h
    · exact consistentAlongLines_of_dim_ne h
    · exact consistentAlongLines_of_isEmpty h
  obtain ⟨c, hw, -⟩ := DofLayout.wf_of_ofCounts? hfd
  obtain rfl := cube_of_dim_three hw h3
  exact consistentAlongLines_of_size hw hfit hrows hcols haddr

/-- The layout of the trilinear element: one dof on each vertex of the cube. -/
def trilinearLayout : DofLayout := okValue (DofLayout.ofCounts? 3 [1, 0, 0, 0] 1 1)

/-- The interface constraints of the trilinear element: the refined dofs at the face centre and
at the midpoints of the face lines, as averages of the face's vertex dofs. -/
def trilinearConstraints : Matrix :=
  { rows := 5, cols := 4, readOnly := false, name := defaultName,
    entries := #[0.25, 0.25, 0.25, 0.25, 0.5, 0, 0.5, 0, 0, 0.5, 0, 0.5, 0.5, 0.5, 0, 0,
      0, 0, 0.5, 0.5] }

/-- The trilinear element's constraints are of its layout's constraint size and fit the heap, so
the check passes them exactly when they agree entry by entry along the face lines. -/
theorem trilinearConstraints_verdict :
    DofLayout.ofCounts? 3 [1, 0, 0, 0] 1 1 = .ok trilinearLayout ∧ trilinearLayout.dim = 3 ∧
      trilinearLayout.cellPrefix .cube 4 < 2 ^ 63 ∧
      (trilinearConstraints.rows : Int) = trilinearLayout.constraintsSize.1 ∧
      (trilinearConstraints.cols : Int) = trilinearLayout.constraintsSize.2 ∧
      trilinearConstraints.Addressable ∧
      (consistentAlongLines trilinearLayout trilinearConstraints = .ok () ↔
        LinesEqual trilinearConstraints trilinearLayout.dofsPerVertex.toNat
          trilinearLayout.dofsPerLine.toNat) := by
  have hfd : DofLayout.ofCounts? 3 [1, 0, 0, 0] 1 1 = .ok trilinearLayout :=
    eq_ok_okValue (by decide)
  have h3 : trilinearLayout.dim = 3 := by decide
  have hfit : trilinearLayout.cellPrefix .cube 4 < 2 ^ 63 := by decide
  have hrows : (trilinearConstraints.rows : Int) = trilinearLayout.constraintsSize.1 := by decide
  have hcols : (trilinearConstraints.cols : Int) = trilinearLayout.constraintsSize.2 := by decide
  have haddr : trilinearConstraints.Addressable := by decide
  exact ⟨hfd, h3, hfit, hrows, hcols, haddr,
    ((consistentAlongLines_verdict hfd trilinearConstraints).2 h3 hfit hrows hcols haddr).1⟩

end FiniteElements.Constraint
