import FiniteElements.Proofs.Constraint.Lines
import FiniteElements.Proofs.Element.Built

/-!
# Composite constraints

A composite places the interface constraints of each block on the rows and the columns of that
block (`decodeGroups`), with zeros elsewhere (`blockDiagonal`). This file shows that the result
passes the checks of storing constraints: it has the composite's constraint size, and in 3D its
weights agree along face lines because every block's do.

* The rows (columns) of a 3D constraint matrix come in 21 (9) groups of one object kind each
  (`rowKind`, `columnKind`). Listed group by group and block by block (`groupwise`), the refined
  and the coarse dofs of a composite's face line are those of one block's face line (`rows_split`,
  `columns_split`), and a column off a line stays off it in its block (`columns_off`).
* A store keeps only constraints that passed the size and consistency checks
  (`Store.Built.constraintsChecked`), so the constraints of a 3D block agree along face lines
  (`Store.ConstraintsChecked.linesAgree`).

## Main definitions

* `FiniteElements.Element.groupwise`, `FiniteElements.Element.rowKind`,
  `FiniteElements.Element.columnKind`
* `FiniteElements.Element.blockConstraints`, `FiniteElements.Element.blockDiagonal`
* `FiniteElements.Element.Store.ConstraintsChecked`

## Main results

* `FiniteElements.Element.LinesAgree.compose`, `FiniteElements.Element.linesAgree_blockDiagonal`
* `FiniteElements.Element.storeConstraints_eq_ok`,
  `FiniteElements.Element.Store.Built.constraintsChecked`
* `FiniteElements.Element.composeConstraints_stored`
-/

set_option autoImplicit false

namespace FiniteElements.Element

open FiniteElements.Cell FiniteElements.Dense FiniteElements.Constraint

section Transfer

variable {C : Matrix} {DV DL B : Nat} {rows cols : List BlockDof} {Cb : Nat → Matrix}
  {dv dl : Nat → Nat}

/-- **Composing keeps weights agreeing along face lines.** A matrix whose entries are those of
block matrices on the rows and columns of one block, and zero elsewhere, has its weights agree
along face lines when the blocks' do, as long as every refined row and every coarse column of its
face lines is one of a block's face lines, the same on every line, and every column off a face
line is off that line in its block. -/
theorem LinesAgree.compose
    (hrows : ∀ k < DV + 2 * DL, ∃ b < B, ∃ k' < dv b + 2 * dl b,
      ∀ l < 4, rows[lineRow DV DL l k]? = some ⟨b, lineRow (dv b) (dl b) l k'⟩)
    (hcols : ∀ p < 2 * DV + DL, ∃ b < B, ∃ p' < 2 * dv b + dl b,
      ∀ l < 4, cols[lineColumn DV DL l p]? = some ⟨b, lineColumn (dv b) (dl b) l p'⟩)
    (hoff : ∀ l < 4, ∀ col < C.cols, (∀ p < 2 * DV + DL, lineColumn DV DL l p ≠ col) →
      ∃ b j, cols[col]? = some ⟨b, j⟩ ∧ j < (Cb b).cols ∧
        ∀ p' < 2 * dv b + dl b, lineColumn (dv b) (dl b) l p' ≠ j)
    (hget : ∀ i j (bd bd' : BlockDof), rows[i]? = some bd → cols[j]? = some bd' →
      C.get i j = if bd.block = bd'.block then (Cb bd.block).get bd.index bd'.index else 0)
    (hbase : ∀ b < B, LinesAgree (Cb b) (dv b) (dl b)) : LinesAgree C DV DL where
  onLine l hl k hk col hcol hcolOff := by
    obtain ⟨b, hb, k', hk', hr⟩ := hrows k hk
    obtain ⟨b', j, hc, hj, hjOff⟩ := hoff l hl col hcol hcolOff
    rw [hget _ _ _ _ (hr l hl) hc]
    split
    · rename_i hbb
      subst hbb
      exact (hbase b hb).onLine l hl k' hk' j hj hjOff
    · decide
  agree l hl₁ hl k hk p hp := by
    obtain ⟨b, hb, k', hk', hr⟩ := hrows k hk
    obtain ⟨b', -, p', hp', hc⟩ := hcols p hp
    simp only [lineWeight]
    rw [hget _ _ _ _ (hr 0 (by omega)) (hc 0 (by omega)), hget _ _ _ _ (hr l hl) (hc l hl)]
    split
    · rename_i hbb
      subst hbb
      exact (hbase b hb).agree l hl₁ hl k' hk' p' hp'
    · exact ⟨by decide, by decide⟩

end Transfer

section Groups

/-- The first entry of part `g` of consecutive parts, part `j` of `n j` entries. -/
def groupStart (n : Nat → Nat) (g : Nat) : Nat := ((List.range g).map n).sum

theorem groupStart_succ (n : Nat → Nat) (g : Nat) :
    groupStart n (g + 1) = groupStart n g + n g := by
  simp [groupStart, List.range_succ]

/-- A position before the end of part `B` lies in one of the parts. -/
theorem exists_eq_groupStart_add {n : Nat → Nat} :
    ∀ {B i : Nat}, i < groupStart n B → ∃ β < B, ∃ r < n β, i = groupStart n β + r
  | 0, i, h => by simp [groupStart] at h
  | B + 1, i, h => by
    rw [groupStart_succ] at h
    by_cases hi : i < groupStart n B
    · obtain ⟨β, hβ, r, hr, rfl⟩ := exists_eq_groupStart_add hi
      exact ⟨β, by omega, r, hr, rfl⟩
    · exact ⟨B, by omega, i - groupStart n B, by omega, by omega⟩

/-- Block dofs listed group by group and, in each group, block by block: block `b` has `c b g`
dofs in group `g`, numbered in the block from where group `g` starts in it. -/
def groupwise (G B : Nat) (c : Nat → Nat → Nat) : List BlockDof :=
  (List.range G).flatMap fun g => (List.range B).flatMap fun b =>
    (List.range (c b g)).map fun d => ⟨b, groupStart (c b) g + d⟩

variable {G B : Nat} {c : Nat → Nat → Nat}

private theorem length_groupDofs (g : Nat) :
    ((List.range B).flatMap fun b => (List.range (c b g)).map fun d =>
      (⟨b, groupStart (c b) g + d⟩ : BlockDof)).length = groupStart (c · g) B := by
  simp [List.length_flatMap, groupStart]

theorem length_groupwise : (groupwise G B c).length = groupStart (fun g => groupStart (c · g) B) G := by
  simp [groupwise, List.length_flatMap, groupStart]

/-- **Where a block dof sits in a list made group by group.** Dof `d` of block `b` in group `g`
comes after the dofs of the groups before `g` and of the blocks before `b` in group `g`. -/
theorem getElem?_groupwise {g b d : Nat} (hg : g < G) (hb : b < B) (hd : d < c b g) :
    (groupwise G B c)[groupStart (fun g => groupStart (c · g) B) g + groupStart (c · g) b + d]? =
      some ⟨b, groupStart (c b) g + d⟩ := by
  have hr : groupStart (c · g) b + d < groupStart (c · g) B := by
    have := sum_range_add_le (n := (c · g)) hb
    simp only [groupStart]
    omega
  rw [groupwise, Nat.add_assoc, groupStart,
    getElem?_flatMap_range_of_length (n := fun g => groupStart (c · g) B) length_groupDofs hg hr,
    groupStart, getElem?_flatMap_range_of_length (n := (c · g)) (fun b => by simp) hb hd]
  simp [hd]

/-- Every position of a list made group by group is that of a dof of one block in one group. -/
theorem exists_of_lt_length_groupwise {i : Nat} (hi : i < (groupwise G B c).length) :
    ∃ g < G, ∃ b < B, ∃ d < c b g,
      i = groupStart (fun g => groupStart (c · g) B) g + groupStart (c · g) b + d := by
  rw [length_groupwise] at hi
  obtain ⟨g, hg, r, hr, rfl⟩ := exists_eq_groupStart_add hi
  obtain ⟨b, hb, d, hd, rfl⟩ := exists_eq_groupStart_add hr
  exact ⟨g, hg, b, hb, d, hd, by omega⟩

/-- The first row (or column) of every group: the dofs of the groups before it. -/
theorem groupOffsets_eq (groups : List Group) (counts : List Int) :
    groupOffsets groups counts = (List.range (groups.length + 1)).map fun i =>
      ((groups.take i).map fun g => counts.getD g.objectDim 0).sum := by
  induction groups using List.reverseRecOn with
  | nil => rfl
  | append_singleton gs g ih =>
    unfold groupOffsets at ih ⊢
    rw [List.foldl_append, ih]
    simp only [List.foldl_cons, List.foldl_nil]
    rw [List.length_append, List.length_singleton, List.range_succ (n := gs.length + 1),
      List.map_append]
    congr 1
    · refine List.map_congr_left fun i hi => ?_
      rw [List.take_append_of_le_length (by simp at hi; omega)]
    · rw [List.getLast?_map, List.getLast?_range]
      simp [List.take_of_length_le]

theorem getD_groupOffsets {groups : List Group} {counts : List Int} {i : Nat}
    (hi : i ≤ groups.length) : (groupOffsets groups counts).getD i 0 =
      ((List.range i).map fun j => counts.getD (groups.getD j default).objectDim 0).sum := by
  rw [groupOffsets_eq, List.getD_eq_getElem?_getD, List.getElem?_map,
    List.getElem?_range (by omega), Option.map_some, Option.getD_some,
    map_take_eq_map_range _ _ hi]

/-- **The rows (or columns) of a constraint layout in their blocks** are listed group by group,
and in each group block by block, each block's dofs of the group numbered from where the group
starts in the block. -/
theorem decodeGroups_eq (groups : List Group) {blocks : List Block}
    (hnn : ∀ blk ∈ blocks, ∀ j, 0 ≤ blk.store.layout.objectCounts.getD j 0) :
    decodeGroups groups blocks = groupwise groups.length blocks.length fun b g =>
      ((blocks.getD b default).store.layout.objectCounts.getD
        (groups.getD g default).objectDim 0).toNat := by
  unfold decodeGroups groupwise
  rw [zipIdx_flatMap]
  refine List.flatMap_congr fun g hg => ?_
  dsimp only
  rw [zipIdx_flatMap]
  refine List.flatMap_congr fun b hb => ?_
  dsimp only
  refine List.map_congr_left fun d _ => ?_
  have hb := List.mem_range.1 hb
  have hg := List.mem_range.1 hg
  have hblk : blocks.getD b default = blocks[b] := by
    simp [List.getD_eq_getElem?_getD, List.getElem?_eq_getElem hb]
  have hnn' := hnn _ (List.getElem_mem hb)
  simp only [List.getD_eq_getElem?_getD (l := blocks.map _), List.getElem?_map,
    List.getElem?_eq_getElem hb, Option.map_some, Option.getD_some, hblk]
  rw [getD_groupOffsets hg.le, groupStart, ← natCast_sum_toNat _ fun j _ => hnn' _]
  simp only [BlockDof.mk.injEq, true_and]
  omega

end Groups

section Kinds

/-- The object kind of group `g` of the rows of a 3D constraint matrix: five vertex groups, twelve
line groups and four quad groups. -/
def rowKind (g : Nat) : Nat := if g < 5 then 0 else if g < 17 then 1 else 2

/-- The object kind of group `g` of the columns of a 3D constraint matrix: four vertex groups,
four line groups and one quad group. -/
def columnKind (g : Nat) : Nat := if g < 4 then 0 else if g < 8 then 1 else 2

theorem objectDim_rowGroups {g : Nat} (hg : g < 21) :
    ((rowGroups 3).getD g default).objectDim = rowKind g := by
  interval_cases g <;> rfl

theorem objectDim_columnGroups {g : Nat} (hg : g < 9) :
    ((columnGroups 3).getD g default).objectDim = columnKind g := by
  interval_cases g <;> rfl

variable (n : Nat → Nat)

theorem groupStart_rowKind_of_le_five {g : Nat} (hg : g ≤ 5) :
    groupStart (fun g => n (rowKind g)) g = g * n 0 := by
  induction g with
  | zero => simp [groupStart]
  | succ g ih => rw [groupStart_succ, ih (by omega), rowKind, if_pos (by omega), Nat.succ_mul]

theorem groupStart_rowKind_of_le_seventeen {g : Nat} (h5 : 5 ≤ g) (hg : g ≤ 17) :
    groupStart (fun g => n (rowKind g)) g = 5 * n 0 + (g - 5) * n 1 := by
  induction g, h5 using Nat.le_induction with
  | base => simp [groupStart_rowKind_of_le_five n le_rfl]
  | succ g h5 ih =>
    rw [groupStart_succ, ih (by omega), rowKind, if_neg (by omega), if_pos (by omega),
      show g + 1 - 5 = g - 5 + 1 by omega]
    ring

theorem groupStart_rowKind_all :
    groupStart (fun g => n (rowKind g)) 21 = 5 * n 0 + 12 * n 1 + 4 * n 2 := by
  have h := groupStart_rowKind_of_le_seventeen n (g := 17) (by omega) le_rfl
  rw [show 21 = 17 + 1 + 1 + 1 + 1 from rfl, groupStart_succ, groupStart_succ, groupStart_succ,
    groupStart_succ, h]
  simp [rowKind]
  ring

theorem groupStart_columnKind_of_le_four {g : Nat} (hg : g ≤ 4) :
    groupStart (fun g => n (columnKind g)) g = g * n 0 := by
  induction g with
  | zero => simp [groupStart]
  | succ g ih => rw [groupStart_succ, ih (by omega), columnKind, if_pos (by omega), Nat.succ_mul]

theorem groupStart_columnKind_of_le_eight {g : Nat} (h4 : 4 ≤ g) (hg : g ≤ 8) :
    groupStart (fun g => n (columnKind g)) g = 4 * n 0 + (g - 4) * n 1 := by
  induction g, h4 using Nat.le_induction with
  | base => simp [groupStart_columnKind_of_le_four n le_rfl]
  | succ g h4 ih =>
    rw [groupStart_succ, ih (by omega), columnKind, if_neg (by omega), if_pos (by omega),
      show g + 1 - 4 = g - 4 + 1 by omega]
    ring

theorem groupStart_columnKind_all :
    groupStart (fun g => n (columnKind g)) 9 = 4 * n 0 + 4 * n 1 + n 2 := by
  rw [show 9 = 8 + 1 from rfl, groupStart_succ,
    groupStart_columnKind_of_le_eight n (by omega) le_rfl]
  simp [columnKind]

/-- The vertices at the ends of a face line are two different vertices of the face. -/
theorem faceLineEnds_getD {l : Nat} (hl : l < 4) :
    (faceLineEnds.getD l (0, 0)).1 < 4 ∧ (faceLineEnds.getD l (0, 0)).2 < 4 ∧
      (faceLineEnds.getD l (0, 0)).1 ≠ (faceLineEnds.getD l (0, 0)).2 := by
  interval_cases l <;> decide

section LineGroups

variable {l : Nat} (hl : l < 4)
include hl

/-- The refined dofs of face line `l`: those of its midpoint, row group `1 + l`, then those of its
half-lines, row groups `9 + 2 l` and `10 + 2 l`. -/
theorem lineRow_of_lt {k : Nat} (hk : k < n 0) :
    lineRow (n 0) (n 1) l k = groupStart (fun g => n (rowKind g)) (1 + l) + k := by
  rw [lineRow, if_pos hk, groupStart_rowKind_of_le_five n (by omega)]
  ring

theorem lineRow_of_le_vertex {k : Nat} (hk : n 0 ≤ k) :
    lineRow (n 0) (n 1) l k = groupStart (fun g => n (rowKind g)) (9 + 2 * l) + (k - n 0) := by
  rw [lineRow, if_neg (by omega), groupStart_rowKind_of_le_seventeen n (by omega) (by omega),
    show 9 + 2 * l - 5 = 4 + 2 * l by omega]
  ring

theorem lineRow_of_le_line {k : Nat} (hk : n 0 + n 1 ≤ k) :
    lineRow (n 0) (n 1) l k =
      groupStart (fun g => n (rowKind g)) (10 + 2 * l) + (k - n 0 - n 1) := by
  obtain ⟨e, rfl⟩ : ∃ e, k = n 0 + n 1 + e := ⟨k - n 0 - n 1, by omega⟩
  rw [lineRow, if_neg (by omega), groupStart_rowKind_of_le_seventeen n (by omega) (by omega),
    show 10 + 2 * l - 5 = 4 + 2 * l + 1 by omega, show n 0 + n 1 + e - n 0 = n 1 + e by omega,
    Nat.add_sub_cancel_left]
  ring

/-- The coarse dofs of face line `l`: those of its start vertex, of its end vertex, then of its
interior, column groups `a`, `b` and `4 + l`. -/
theorem lineColumn_of_lt {p : Nat} (hp : p < n 0) :
    lineColumn (n 0) (n 1) l p =
      groupStart (fun g => n (columnKind g)) (faceLineEnds.getD l (0, 0)).1 + p := by
  rw [lineColumn, if_pos hp, groupStart_columnKind_of_le_four n (faceLineEnds_getD hl).1.le]

theorem lineColumn_of_lt_two {p : Nat} (hp₀ : n 0 ≤ p) (hp : p < 2 * n 0) :
    lineColumn (n 0) (n 1) l p =
      groupStart (fun g => n (columnKind g)) (faceLineEnds.getD l (0, 0)).2 + (p - n 0) := by
  rw [lineColumn, if_neg (by omega), if_pos hp,
    groupStart_columnKind_of_le_four n (faceLineEnds_getD hl).2.1.le]

theorem lineColumn_of_le {p : Nat} (hp : 2 * n 0 ≤ p) :
    lineColumn (n 0) (n 1) l p = groupStart (fun g => n (columnKind g)) (4 + l) + (p - 2 * n 0) := by
  rw [lineColumn, if_neg (by omega), if_neg (by omega),
    groupStart_columnKind_of_le_eight n (by omega) (by omega), Nat.add_sub_cancel_left]

/-- Column `e` of column group `g` is a coarse dof of face line `l` exactly when the group is one
of the line's: its start vertex, its end vertex or the line itself. -/
theorem exists_lineColumn_eq_iff {g e : Nat} (he : e < n (columnKind g)) :
    (∃ p < 2 * n 0 + n 1,
        lineColumn (n 0) (n 1) l p = groupStart (fun g => n (columnKind g)) g + e) ↔
      g = (faceLineEnds.getD l (0, 0)).1 ∨ g = (faceLineEnds.getD l (0, 0)).2 ∨ g = 4 + l := by
  obtain ⟨ha, hb, -⟩ := faceLineEnds_getD hl
  have hka : columnKind (faceLineEnds.getD l (0, 0)).1 = 0 := by rw [columnKind, if_pos ha]
  have hkb : columnKind (faceLineEnds.getD l (0, 0)).2 = 0 := by rw [columnKind, if_pos hb]
  have hkl : columnKind (4 + l) = 1 := by simp [columnKind]; omega
  constructor
  · rintro ⟨p, hp, h⟩
    -- the column's group is the group of the part of the line it is in
    by_cases h₀ : p < n 0
    · rw [lineColumn_of_lt n hl h₀] at h
      have hc : p < n (columnKind (faceLineEnds.getD l (0, 0)).1) := by rw [hka]; exact h₀
      exact .inl (eq_of_sum_range_add (n := fun g => n (columnKind g)) hc he h).1.symm
    by_cases h₁ : p < 2 * n 0
    · rw [lineColumn_of_lt_two n hl (by omega) h₁] at h
      have hc : p - n 0 < n (columnKind (faceLineEnds.getD l (0, 0)).2) := by rw [hkb]; omega
      exact .inr (.inl (eq_of_sum_range_add (n := fun g => n (columnKind g)) hc he h).1.symm)
    · rw [lineColumn_of_le n hl (by omega)] at h
      have hc : p - 2 * n 0 < n (columnKind (4 + l)) := by rw [hkl]; omega
      exact .inr (.inr (eq_of_sum_range_add (n := fun g => n (columnKind g)) hc he h).1.symm)
  · rintro (rfl | rfl | rfl)
    · rw [hka] at he
      exact ⟨e, by omega, lineColumn_of_lt n hl he⟩
    · rw [hkb] at he
      refine ⟨n 0 + e, by omega, ?_⟩
      rw [lineColumn_of_lt_two n hl (by omega) (by omega), Nat.add_sub_cancel_left]
    · rw [hkl] at he
      refine ⟨2 * n 0 + e, by omega, ?_⟩
      rw [lineColumn_of_le n hl (by omega), Nat.add_sub_cancel_left]

end LineGroups

end Kinds

section Splits

/-- The dofs of kind `k` of blocks `0 … B - 1`, block `b` having `m b k`. -/
def kindSum (B : Nat) (m : Nat → Nat → Nat) (k : Nat) : Nat := groupStart (m · k) B

variable {B : Nat} {m : Nat → Nat → Nat}

theorem getElem?_groupwise_kind {kind : Nat → Nat} {G g b d κ : Nat} (hg : g < G)
    (hκ : kind g = κ) (hb : b < B) (hd : d < m b κ) :
    (groupwise G B fun b g => m b (kind g))[groupStart (fun g => kindSum B m (kind g)) g +
        groupStart (m · κ) b + d]? = some ⟨b, groupStart (fun g => m b (kind g)) g + d⟩ := by
  subst hκ
  exact getElem?_groupwise hg hb hd

/-- **The face-line rows of a composite, in its blocks.** Each refined row of the composite's face
lines is a refined row of one block's face lines, the same on every line. -/
theorem rows_split {k : Nat} (hk : k < kindSum B m 0 + 2 * kindSum B m 1) :
    ∃ b < B, ∃ k' < m b 0 + 2 * m b 1, ∀ l < 4,
      (groupwise 21 B fun b g => m b (rowKind g))[lineRow (kindSum B m 0) (kindSum B m 1) l k]? =
        some ⟨b, lineRow (m b 0) (m b 1) l k'⟩ := by
  by_cases h₀ : k < kindSum B m 0
  · -- a dof of the midpoint
    obtain ⟨b, hb, d, hd, rfl⟩ := exists_eq_groupStart_add h₀
    refine ⟨b, hb, d, by omega, fun l hl => ?_⟩
    rw [lineRow_of_lt (kindSum B m) hl h₀, ← Nat.add_assoc,
      getElem?_groupwise_kind (g := 1 + l) (by omega) (by rw [rowKind, if_pos (by omega)]) hb hd,
      lineRow_of_lt (m b) hl hd]
  by_cases h₁ : k < kindSum B m 0 + kindSum B m 1
  · -- a dof of the half-line at the start
    obtain ⟨b, hb, d, hd, he⟩ := exists_eq_groupStart_add (show k - kindSum B m 0 < kindSum B m 1 by omega)
    refine ⟨b, hb, m b 0 + d, by omega, fun l hl => ?_⟩
    rw [lineRow_of_le_vertex (kindSum B m) hl (by omega), he, ← Nat.add_assoc,
      getElem?_groupwise_kind (g := 9 + 2 * l) (by omega)
        (by rw [rowKind, if_neg (by omega), if_pos (by omega)]) hb hd,
      lineRow_of_le_vertex (m b) hl (by omega), Nat.add_sub_cancel_left]
  · -- a dof of the half-line at the end
    obtain ⟨b, hb, d, hd, he⟩ := exists_eq_groupStart_add
      (show k - kindSum B m 0 - kindSum B m 1 < kindSum B m 1 by omega)
    refine ⟨b, hb, m b 0 + m b 1 + d, by omega, fun l hl => ?_⟩
    rw [lineRow_of_le_line (kindSum B m) hl (by omega), he, ← Nat.add_assoc,
      getElem?_groupwise_kind (g := 10 + 2 * l) (by omega)
        (by rw [rowKind, if_neg (by omega), if_pos (by omega)]) hb hd,
      lineRow_of_le_line (m b) hl (by omega), show m b 0 + m b 1 + d - m b 0 - m b 1 = d by omega]

/-- **The face-line columns of a composite, in its blocks.** Each coarse column of the
composite's face lines is a coarse column of one block's face lines, the same on every line. -/
theorem columns_split {p : Nat} (hp : p < 2 * kindSum B m 0 + kindSum B m 1) :
    ∃ b < B, ∃ p' < 2 * m b 0 + m b 1, ∀ l < 4,
      (groupwise 9 B fun b g => m b (columnKind g))[lineColumn (kindSum B m 0) (kindSum B m 1) l p]? =
        some ⟨b, lineColumn (m b 0) (m b 1) l p'⟩ := by
  by_cases h₀ : p < kindSum B m 0
  · -- a dof of the start vertex
    obtain ⟨b, hb, d, hd, rfl⟩ := exists_eq_groupStart_add h₀
    refine ⟨b, hb, d, by omega, fun l hl => ?_⟩
    obtain ⟨ha, -, -⟩ := faceLineEnds_getD hl
    rw [lineColumn_of_lt (kindSum B m) hl h₀, ← Nat.add_assoc,
      getElem?_groupwise_kind (g := (faceLineEnds.getD l (0, 0)).1) (by omega)
        (by rw [columnKind, if_pos ha]) hb hd,
      lineColumn_of_lt (m b) hl hd]
  by_cases h₁ : p < 2 * kindSum B m 0
  · -- a dof of the end vertex
    obtain ⟨b, hb, d, hd, he⟩ :=
      exists_eq_groupStart_add (show p - kindSum B m 0 < kindSum B m 0 by omega)
    refine ⟨b, hb, m b 0 + d, by omega, fun l hl => ?_⟩
    obtain ⟨-, hb', -⟩ := faceLineEnds_getD hl
    rw [lineColumn_of_lt_two (kindSum B m) hl (by omega) h₁, he, ← Nat.add_assoc,
      getElem?_groupwise_kind (g := (faceLineEnds.getD l (0, 0)).2) (by omega)
        (by rw [columnKind, if_pos hb']) hb hd,
      lineColumn_of_lt_two (m b) hl (by omega) (by omega), Nat.add_sub_cancel_left]
  · -- a dof of the line's interior
    obtain ⟨b, hb, d, hd, he⟩ :=
      exists_eq_groupStart_add (show p - 2 * kindSum B m 0 < kindSum B m 1 by omega)
    refine ⟨b, hb, 2 * m b 0 + d, by omega, fun l hl => ?_⟩
    rw [lineColumn_of_le (kindSum B m) hl (by omega), he, ← Nat.add_assoc,
      getElem?_groupwise_kind (g := 4 + l) (by omega)
        (by rw [columnKind, if_neg (by omega), if_pos (by omega)]) hb hd,
      lineColumn_of_le (m b) hl (by omega), Nat.add_sub_cancel_left]

/-- **Columns off a face line stay off it in their blocks.** A column of the composite that is no
coarse dof of face line `l` is, in its block, a column of the block that is no coarse dof of the
block's face line `l`. -/
theorem columns_off {col l : Nat} (hl : l < 4)
    (hcol : col < groupStart (fun g => kindSum B m (columnKind g)) 9)
    (hoff : ∀ p < 2 * kindSum B m 0 + kindSum B m 1,
      lineColumn (kindSum B m 0) (kindSum B m 1) l p ≠ col) :
    ∃ b < B, ∃ j, (groupwise 9 B fun b g => m b (columnKind g))[col]? = some ⟨b, j⟩ ∧
      j < 4 * m b 0 + 4 * m b 1 + m b 2 ∧
      ∀ p' < 2 * m b 0 + m b 1, lineColumn (m b 0) (m b 1) l p' ≠ j := by
  obtain ⟨g, hg, b, hb, d, hd, rfl⟩ := exists_of_lt_length_groupwise
    (c := fun b g => m b (columnKind g)) (by rw [length_groupwise]; exact hcol)
  refine ⟨b, hb, groupStart (fun g => m b (columnKind g)) g + d, getElem?_groupwise hg hb hd, ?_,
    fun p' hp' hj => ?_⟩
  · have := sum_range_add_le (n := fun g => m b (columnKind g)) hg
    rw [← groupStart_columnKind_all (m b)]
    simp only [groupStart] at this ⊢
    omega
  · -- a coarse dof of the block's line would give one of the composite's at the column
    have hgl := (exists_lineColumn_eq_iff (m b) hl hd).1 ⟨p', hp', hj⟩
    have hin : groupStart (m · (columnKind g)) b + d < kindSum B m (columnKind g) := by
      have := sum_range_add_le (n := (m · (columnKind g))) hb
      simp only [kindSum, groupStart] at this ⊢
      omega
    obtain ⟨p, hp, hpc⟩ := (exists_lineColumn_eq_iff (kindSum B m) hl hin).2 hgl
    exact hoff p hp (by rw [hpc, Nat.add_assoc]; rfl)

end Splits

section Stored

open FiniteElements.Numeric

/-- **What storing constraints checks.** No constraints are stored as none; any others must have
the layout's constraint size and pass the consistency check, and a copy is stored. -/
theorem storeConstraints_eq_ok {C C' : Matrix} {fd : DofLayout} :
    storeConstraints C fd = .ok C' ↔ (C.isEmpty = true ∧ C' = .empty) ∨
      (C.isEmpty = false ∧ ((C.rows : Int), (C.cols : Int)) = fd.constraintsSize ∧
        consistentAlongLines fd C = .ok () ∧ C' = C.copy) := by
  unfold storeConstraints
  cases hC : C.isEmpty with
  | true =>
    simp only [if_true, pure, Except.pure, Except.ok.injEq]
    exact ⟨fun h => .inl ⟨trivial, h.symm⟩, fun h => by
      rcases h with ⟨-, rfl⟩ | ⟨h, -⟩
      · rfl
      · exact absurd h (by decide)⟩
  | false =>
    simp only [Bool.false_eq_true, if_false, ite_report_bind_eq_ok, bind_unit_eq_ok, pure,
      Except.pure, Except.ok.injEq, Bool.or_eq_true, bne_iff_ne, ne_eq, not_or, not_not,
      false_and, false_or, true_and]
    constructor
    · rintro ⟨hshape, hcons, rfl⟩
      exact ⟨Prod.ext hshape.1 hshape.2, hcons, rfl⟩
    · rintro ⟨hshape, hcons, rfl⟩
      exact ⟨⟨congrArg Prod.fst hshape, congrArg Prod.snd hshape⟩, hcons, rfl⟩

/-- The interface constraints a store keeps: none, or a matrix with the columns and entries of one
of its layout's constraint size that passed the consistency check. -/
def Store.ConstraintsChecked (s : Store) : Prop :=
  s.constraints.isEmpty = false → ∃ C : Matrix, C.isEmpty = false ∧
    ((C.rows : Int), (C.cols : Int)) = s.layout.constraintsSize ∧
    consistentAlongLines s.layout C = .ok () ∧ s.constraints.cols = C.cols ∧
    s.constraints.entries = C.entries

end Stored

section Sizes

open FiniteElements.Numeric

theorem cube_of_dim_three {fd : DofLayout} {c : Hypercube} (hw : fd.Wf c) (h3 : fd.dim = 3) :
    c = .cube := by
  have hdim := Hypercube.dim_of_ofDim? hw.cell
  rw [h3] at hdim
  cases c <;> simp [Hypercube.dim] at hdim ⊢

theorem objectCounts_getD_of_dim_three {fd : DofLayout} (h3 : fd.dim = 3) (k : Nat) :
    fd.objectCounts.getD k 0 = fd.countOf k := by
  simp [DofLayout.objectCounts, DofLayout.countOf, DofLayout.allCounts, h3]

/-- **The constraint size of a layout whose dofs fit a machine word**, from its exact counts:
none in 1D, `dv + 2 dl` by `2 dv + dl` in 2D, `5 dv + 12 dl + 4 dq` by `4 dv + 4 dl + dq` in 3D. -/
theorem constraintsSize_eq {fd : DofLayout} {c : Hypercube} (hw : fd.Wf c)
    (hfit : fd.cellPrefix c 4 < 2 ^ 63) :
    fd.constraintsSize = match c with
      | .interval => (0, 0)
      | .square => (fd.countOf 0 + 2 * fd.countOf 1, 2 * fd.countOf 0 + fd.countOf 1)
      | .cube => (5 * fd.countOf 0 + 12 * fd.countOf 1 + 4 * fd.countOf 2,
          4 * fd.countOf 0 + 4 * fd.countOf 1 + fd.countOf 2) := by
  have hdim := Hypercube.dim_of_ofDim? hw.cell
  have h0 := hw.count_nonneg 0
  have h1 := hw.count_nonneg 1
  have h2 := hw.count_nonneg 2
  have h3 := hw.count_nonneg 3
  have hv : fd.countOf 0 = fd.dofsPerVertex := rfl
  have hl : fd.countOf 1 = fd.dofsPerLine := rfl
  have hq : fd.countOf 2 = fd.dofsPerQuad := rfl
  cases c with
  | interval => simp [DofLayout.constraintsSize, ← hdim, Hypercube.dim]
  | square =>
    simp [DofLayout.cellPrefix, Hypercube.objectsPerCell, List.range_succ] at hfit
    simp only [DofLayout.constraintsSize, ← hdim, Hypercube.dim]
    norm_num
    rw [wrapWord_eq_self.2 ⟨by omega, by omega⟩, wrapWord_eq_self.2 ⟨by omega, by omega⟩]
    exact ⟨rfl, rfl⟩
  | cube =>
    simp [DofLayout.cellPrefix, Hypercube.objectsPerCell, List.range_succ] at hfit
    simp only [DofLayout.constraintsSize, ← hdim, Hypercube.dim]
    norm_num
    rw [wrapWord_eq_self.2 ⟨by omega, by omega⟩, wrapWord_eq_self.2 ⟨by omega, by omega⟩]
    exact ⟨rfl, rfl⟩

theorem constraintsSize_nonneg {fd : DofLayout} {c : Hypercube} (hw : fd.Wf c)
    (hfit : fd.cellPrefix c 4 < 2 ^ 63) :
    0 ≤ fd.constraintsSize.1 ∧ 0 ≤ fd.constraintsSize.2 := by
  have h0 := hw.count_nonneg 0
  have h1 := hw.count_nonneg 1
  have h2 := hw.count_nonneg 2
  rw [constraintsSize_eq hw hfit]
  cases c <;> dsimp only <;> omega

/-- **The constraints of a 3D element agree along its face lines.** A 3D store whose dofs fit a
machine word and that keeps checked constraints has, when it keeps any, `4 dv + 4 dl + dq` columns
with weights that agree along face lines. -/
theorem Store.ConstraintsChecked.linesAgree {s : Store} (hc : s.ConstraintsChecked)
    (hw : s.layout.Wf s.cell) (h3 : s.layout.dim = 3)
    (hfit : s.layout.cellPrefix s.cell 4 < 2 ^ 63) (hne : s.constraints.isEmpty = false) :
    LinesAgree s.constraints (s.layout.countOf 0).toNat (s.layout.countOf 1).toNat ∧
      s.constraints.cols = 4 * (s.layout.countOf 0).toNat + 4 * (s.layout.countOf 1).toNat +
        (s.layout.countOf 2).toNat := by
  obtain ⟨C, hCe, hsize, hcons, hcols, hentries⟩ := hc hne
  have hcube := cube_of_dim_three hw h3
  have h0 := hw.count_nonneg 0
  have h1 := hw.count_nonneg 1
  have h2 := hw.count_nonneg 2
  have hword : 5 * (s.layout.countOf 0).toNat + 12 * (s.layout.countOf 1).toNat < 2 ^ 63 := by
    have := hw.count_nonneg 3
    rw [hcube] at hfit
    simp [DofLayout.cellPrefix, Hypercube.objectsPerCell, List.range_succ] at hfit
    omega
  rw [constraintsSize_eq hw hfit, hcube, Prod.mk.injEq] at hsize
  have hC := ((consistentAlongLines_eq_ok h3 hCe
    (show s.layout.dofsPerVertex = ((s.layout.countOf 0).toNat : Int) by
      rw [Int.toNat_of_nonneg h0]; rfl)
    (show s.layout.dofsPerLine = ((s.layout.countOf 1).toNat : Int) by
      rw [Int.toNat_of_nonneg h1]; rfl)
    (by omega) (by omega) hword).1 hcons).2
  refine ⟨hC.congr hcols fun i j => by simp [Matrix.get, hcols, hentries], by omega⟩

end Sizes

section Compose

variable {fd : DofLayout} {blocks : List Block}

/-- The interface constraints of a store that knows them, when it has face dofs. -/
theorem Store.interfaceConstraints_of_implemented {s : Store}
    (himpl : s.constraintsAreImplemented = true) (hface : s.layout.dofsPerFace ≠ 0) :
    s.interfaceConstraints = .ok s.constraints.readOnlyCopy := by
  unfold Store.interfaceConstraints
  unfold Store.constraintsAreImplemented at himpl
  by_cases h1 : s.layout.dim = 1
  · simp [DofLayout.constraintsSize, h1, pure, Except.pure]
  · simp_all [pure, Except.pure]

/-- The constraint matrix each block contributes: none without face dofs, else a read-only copy
of its own. -/
def blockConstraints (blk : Block) : Matrix :=
  if blk.store.layout.dofsPerFace == 0 then .empty else blk.store.constraints.readOnlyCopy

/-- The guard of composing constraints: no block with face dofs lacks its constraints. -/
theorem not_any_unimplemented :
    ¬(blocks.any fun blk =>
        blk.store.layout.dofsPerFace != 0 && !blk.store.constraintsAreImplemented) = true ↔
      ∀ blk ∈ blocks, blk.store.layout.dofsPerFace ≠ 0 → blk.store.constraintsAreImplemented = true := by
  simp

theorem mapM_blockConstraints
    (himpl : ∀ blk ∈ blocks,
      blk.store.layout.dofsPerFace ≠ 0 → blk.store.constraintsAreImplemented = true) :
    blocks.mapM (fun blk => if blk.store.layout.dofsPerFace == 0 then pure Matrix.empty
      else blk.store.interfaceConstraints) = .ok (blocks.map blockConstraints) := by
  refine mapM_eq_ok_map fun blk hblk => ?_
  unfold blockConstraints
  split
  · rfl
  · rename_i hface
    have hface : blk.store.layout.dofsPerFace ≠ 0 := by simpa using hface
    exact Store.interfaceConstraints_of_implemented (himpl blk hblk hface) hface

/-- A 3D block's constraints agree along face lines and have `4 dv + 4 dl + dq` columns: none
without face dofs, the block's own otherwise. -/
theorem blockConstraints_linesAgree {blk : Block} (hw : blk.store.layout.Wf blk.store.cell)
    (h3 : blk.store.layout.dim = 3)
    (hfit : blk.store.layout.cellPrefix blk.store.cell 4 < 2 ^ 63)
    (hc : blk.store.ConstraintsChecked)
    (himpl : blk.store.layout.dofsPerFace ≠ 0 → blk.store.constraintsAreImplemented = true) :
    LinesAgree (blockConstraints blk) (blk.store.layout.countOf 0).toNat
        (blk.store.layout.countOf 1).toNat ∧
      (blockConstraints blk).cols = 4 * (blk.store.layout.countOf 0).toNat +
        4 * (blk.store.layout.countOf 1).toNat + (blk.store.layout.countOf 2).toNat := by
  have hcube := cube_of_dim_three hw h3
  unfold blockConstraints
  split
  · -- no face dofs: no vertex, line or quad dofs either
    rename_i hface
    have hf := (hw.exact hfit).2.2.2
    rw [beq_iff_eq.1 hface, hcube] at hf
    simp [DofLayout.facePrefix, Hypercube.objectsPerFace, List.range_succ] at hf
    have h0 := hw.count_nonneg 0
    have h1 := hw.count_nonneg 1
    have h2 := hw.count_nonneg 2
    have hv : (blk.store.layout.countOf 0).toNat = 0 := by omega
    have hl : (blk.store.layout.countOf 1).toNat = 0 := by omega
    have hq : (blk.store.layout.countOf 2).toNat = 0 := by omega
    rw [hv, hl, hq]
    exact ⟨⟨fun _ _ k hk => absurd hk (by omega), fun _ _ _ k hk => absurd hk (by omega)⟩, rfl⟩
  · rename_i hface
    have hi := himpl (by simpa using hface)
    have hne : blk.store.constraints.isEmpty = false := by
      simp only [Store.constraintsAreImplemented, h3] at hi
      simpa [hface] using hi
    obtain ⟨hagree, hcols⟩ := hc.linesAgree hw h3 hfit hne
    exact ⟨hagree.congr (Matrix.readOnlyCopy_cols _) (by simp), by rw [Matrix.readOnlyCopy_cols, hcols]⟩

/-- The block-diagonal matrix of the shape of `C` whose entry at a row and a column of one block
is that block's entry, and zero elsewhere. -/
def blockDiagonal (C : Matrix) (rows cols : List BlockDof) (base : List Matrix) : Matrix :=
  { C with entries := (Array.range (C.rows * C.cols)).map fun k =>
      let rd := rows.toArray.getD (k / C.cols) default
      let cd := cols.toArray.getD (k % C.cols) default
      if rd.block == cd.block then (base.getD rd.block .empty).get rd.index cd.index else 0 }

@[simp] theorem isEmpty_blockDiagonal (C : Matrix) (rows cols : List BlockDof)
    (base : List Matrix) : (blockDiagonal C rows cols base).isEmpty = C.isEmpty := rfl

theorem get_blockDiagonal {C : Matrix} {rows cols : List BlockDof} {base : List Matrix}
    {i j : Nat} {bd bd' : BlockDof} (hi : i < C.rows) (hj : j < C.cols)
    (hbd : rows[i]? = some bd) (hbd' : cols[j]? = some bd') :
    (blockDiagonal C rows cols base).get i j =
      if bd.block = bd'.block then (base.getD bd.block .empty).get bd.index bd'.index else 0 := by
  have hk : i * C.cols + j < C.rows * C.cols :=
    calc i * C.cols + j < i * C.cols + C.cols := by omega
      _ = (i + 1) * C.cols := by rw [Nat.succ_mul]
      _ ≤ C.rows * C.cols := Nat.mul_le_mul_right _ hi
  have hdiv : (i * C.cols + j) / C.cols = i := by
    rw [Nat.add_comm, Nat.add_mul_div_right _ _ (by omega), Nat.div_eq_of_lt hj, Nat.zero_add]
  have hmod : (i * C.cols + j) % C.cols = j := by
    rw [Nat.add_comm, Nat.add_mul_mod_self_right, Nat.mod_eq_of_lt hj]
  simp [blockDiagonal, Matrix.get, hk, hdiv, hmod, hbd, hbd']

theorem groupwise_congr {G B : Nat} {c c' : Nat → Nat → Nat}
    (h : ∀ b < B, ∀ g < G, c b g = c' b g) : groupwise G B c = groupwise G B c' := by
  unfold groupwise
  refine List.flatMap_congr fun g hg => List.flatMap_congr fun b hb => ?_
  have hg := List.mem_range.1 hg
  have hb := List.mem_range.1 hb
  have hs : groupStart (c b) g = groupStart (c' b) g :=
    congrArg List.sum (List.map_congr_left fun g' hg' => h b hb g' (by simp at hg'; omega))
  rw [h b hb g hg, hs]

section ThreeD

variable (h3 : ∀ blk ∈ blocks, blk.store.layout.dim = 3)
  (hnn : ∀ blk ∈ blocks, ∀ k, 0 ≤ blk.store.layout.countOf k)
include h3 hnn

/-- The rows of a 3D composite's constraints, group by group and block by block. -/
theorem decodeGroups_rowGroups :
    decodeGroups (rowGroups 3) blocks =
      groupwise 21 blocks.length fun b g => kindCount blocks b (rowKind g) := by
  rw [decodeGroups_eq _ fun blk hblk j => by
    rw [objectCounts_getD_of_dim_three (h3 blk hblk)]; exact hnn blk hblk j]
  refine groupwise_congr fun b hb g hg => ?_
  rw [objectDim_rowGroups hg, objectCounts_getD_of_dim_three (h3 _ (getD_mem_of_lt default hb))]

/-- The columns of a 3D composite's constraints, group by group and block by block. -/
theorem decodeGroups_columnGroups :
    decodeGroups (columnGroups 3) blocks =
      groupwise 9 blocks.length fun b g => kindCount blocks b (columnKind g) := by
  rw [decodeGroups_eq _ fun blk hblk j => by
    rw [objectCounts_getD_of_dim_three (h3 blk hblk)]; exact hnn blk hblk j]
  refine groupwise_congr fun b hb g hg => ?_
  rw [objectDim_columnGroups hg,
    objectCounts_getD_of_dim_three (h3 _ (getD_mem_of_lt default hb))]

end ThreeD

theorem kindSum_kindCount (k : Nat) :
    kindSum blocks.length (kindCount blocks) k = kindTotal blocks k :=
  congrArg List.sum (map_range_getD blocks fun blk => (blk.store.layout.countOf k).toNat)

/-- **A 3D composite's constraints agree along face lines.** Placing the constraints of every block
on the rows and the columns of that block, with zeros elsewhere, keeps the weights agreeing along
every face line when each block's do. -/
theorem linesAgree_blockDiagonal {C : Matrix}
    (hbase : ∀ b < blocks.length, LinesAgree ((blocks.map blockConstraints).getD b .empty)
        (kindCount blocks b 0) (kindCount blocks b 1) ∧
      ((blocks.map blockConstraints).getD b .empty).cols =
        4 * kindCount blocks b 0 + 4 * kindCount blocks b 1 + kindCount blocks b 2)
    (hrows : C.rows = 5 * kindTotal blocks 0 + 12 * kindTotal blocks 1 + 4 * kindTotal blocks 2)
    (hcols : C.cols = 4 * kindTotal blocks 0 + 4 * kindTotal blocks 1 + kindTotal blocks 2)
    (h3 : ∀ blk ∈ blocks, blk.store.layout.dim = 3)
    (hnn : ∀ blk ∈ blocks, ∀ k, 0 ≤ blk.store.layout.countOf k) :
    LinesAgree (blockDiagonal C (decodeGroups (rowGroups 3) blocks)
      (decodeGroups (columnGroups 3) blocks) (blocks.map blockConstraints))
      (kindTotal blocks 0) (kindTotal blocks 1) := by
  rw [decodeGroups_rowGroups h3 hnn, decodeGroups_columnGroups h3 hnn, ← kindSum_kindCount 0,
    ← kindSum_kindCount 1]
  rw [← kindSum_kindCount 0, ← kindSum_kindCount 1, ← kindSum_kindCount 2] at hrows hcols
  have hlen_rows := (length_groupwise (G := 21) (B := blocks.length)
    (c := fun b g => kindCount blocks b (rowKind g))).trans
    ((groupStart_rowKind_all (kindSum blocks.length (kindCount blocks))).trans hrows.symm)
  have hlen_cols := (length_groupwise (G := 9) (B := blocks.length)
    (c := fun b g => kindCount blocks b (columnKind g))).trans
    ((groupStart_columnKind_all (kindSum blocks.length (kindCount blocks))).trans hcols.symm)
  refine @LinesAgree.compose _ _ _ blocks.length _ _ (fun b => (blocks.map blockConstraints).getD b .empty)
    (fun b => kindCount blocks b 0) (fun b => kindCount blocks b 1) (fun k hk => rows_split hk)
    (fun p hp => columns_split hp) (fun l hl col hcol hoff => ?_) (fun i j bd bd' hi hj => ?_)
    (fun b hb => (hbase b hb).1)
  · -- a column off a face line is, in its block, a column off the block's face line
    have hcol' : col < groupStart (fun g => kindSum blocks.length (kindCount blocks) (columnKind g)) 9 := by
      rw [groupStart_columnKind_all]
      simp only [blockDiagonal] at hcol
      omega
    obtain ⟨b, hb, j, hj, hjlt, hjoff⟩ := columns_off hl hcol' hoff
    exact ⟨b, j, hj, (hbase b hb).2 ▸ hjlt, hjoff⟩
  · have hi' : i < C.rows := by
      have := (List.getElem?_eq_some_iff.1 hi).1
      omega
    have hj' : j < C.cols := by
      have := (List.getElem?_eq_some_iff.1 hj).1
      omega
    exact get_blockDiagonal hi' hj' hi hj

/-- **The composite's constraints are composed and stored without error.** When the composite's
layout sums its blocks' vertex, line and quad counts and, like every block, fits a machine word,
its face lines' rows and columns can be allocated, and every block is of the composite's dimension
and keeps checked constraints, composing succeeds and the result passes the size and consistency
checks of storing. -/
theorem composeConstraints_stored {c : Hypercube} (hw : fd.Wf c)
    (hfit : fd.cellPrefix c 4 < 2 ^ 63)
    (halloc : fd.constraintsSize.1 * fd.constraintsSize.2 ≤ 2 ^ 45)
    (hroom : fd.dofsPerVertex + 2 * fd.dofsPerLine ≤ 2 ^ 45 ∧
      2 * fd.dofsPerVertex + fd.dofsPerLine ≤ 2 ^ 45)
    (hcount : ∀ k < 3, fd.countOf k = (blocks.map fun blk => blk.store.layout.countOf k).sum)
    (hbw : ∀ blk ∈ blocks, blk.store.layout.Wf blk.store.cell)
    (hbfit : ∀ blk ∈ blocks, blk.store.layout.cellPrefix blk.store.cell 4 < 2 ^ 63)
    (hdim : ∀ blk ∈ blocks, blk.store.layout.dim = fd.dim)
    (hbc : ∀ blk ∈ blocks, blk.store.ConstraintsChecked) :
    ∃ C, composeConstraints fd blocks = .ok C ∧ ∃ C', storeConstraints C fd = .ok C' := by
  have hempty : storeConstraints .empty fd = .ok .empty := storeConstraints_eq_ok.2 (.inl ⟨rfl, rfl⟩)
  obtain ⟨hm, hn⟩ := constraintsSize_nonneg hw hfit
  unfold composeConstraints
  by_cases h0 : Numeric.wrapWord (fd.constraintsSize.1 * fd.constraintsSize.2) = 0
  · exact ⟨.empty, by simp [h0, pure, Except.pure], .empty, hempty⟩
  by_cases himpl : (blocks.any fun blk =>
      blk.store.layout.dofsPerFace != 0 && !blk.store.constraintsAreImplemented) = true
  · exact ⟨.empty, by simp [h0, himpl, pure, Except.pure], .empty, hempty⟩
  have hmn : fd.constraintsSize.1 * fd.constraintsSize.2 ≠ 0 := fun h => h0 (by rw [h]; rfl)
  have hm0 : 0 < fd.constraintsSize.1 := by
    rcases hm.lt_or_eq with h | h
    · exact h
    · rw [← h, Int.zero_mul] at hmn; exact absurd rfl hmn
  have hn0 : 0 < fd.constraintsSize.2 := by
    rcases hn.lt_or_eq with h | h
    · exact h
    · rw [← h, Int.mul_zero] at hmn; exact absurd rfl hmn
  let C₀ : Matrix := ⟨fd.constraintsSize.1.toNat, fd.constraintsSize.2.toNat,
    Array.replicate (fd.constraintsSize.1.toNat * fd.constraintsSize.2.toNat) 0, false, defaultName⟩
  have hC : C₀.isEmpty = false := by simp [C₀, Matrix.isEmpty]; omega
  refine ⟨blockDiagonal C₀ (decodeGroups (rowGroups fd.dim) blocks)
    (decodeGroups (columnGroups fd.dim) blocks) (blocks.map blockConstraints), ?_, _,
    storeConstraints_eq_ok.2 (.inr ⟨hC, ?_, ?_, rfl⟩)⟩
  · dsimp only
    rw [if_neg (by simpa using h0), if_neg himpl,
      mapM_blockConstraints (not_any_unimplemented.1 himpl)]
    simp only [liftMatrix, Matrix.zeros_of_pos hm0 hn0 halloc, Except.mapError, bind, Except.bind,
      pure, Except.pure]
    rfl
  · exact Prod.ext (by simp [blockDiagonal, C₀]; omega) (by simp [blockDiagonal, C₀]; omega)
  · -- only 3D layouts are checked along face lines
    by_cases h3 : fd.dim = 3
    swap
    · exact consistentAlongLines_of_dim_ne h3
    have hnn : ∀ blk ∈ blocks, ∀ k, 0 ≤ blk.store.layout.countOf k :=
      fun blk h => (hbw blk h).count_nonneg
    have hb3 : ∀ blk ∈ blocks, blk.store.layout.dim = 3 := fun blk h => (hdim blk h).trans h3
    have htot : ∀ k < 3, fd.countOf k = (kindTotal blocks k : Int) := fun k hk =>
      (hcount k hk).trans (natCast_sum_toNat _ fun blk h => hnn blk h k).symm
    have hsize := constraintsSize_eq hw hfit
    rw [cube_of_dim_three hw h3] at hsize
    have h0 := htot 0 (by omega)
    have h1 := htot 1 (by omega)
    have h2 := htot 2 (by omega)
    have hrows : C₀.rows = 5 * kindTotal blocks 0 + 12 * kindTotal blocks 1 +
        4 * kindTotal blocks 2 := by
      simp only [C₀, hsize]
      omega
    have hcols : C₀.cols = 4 * kindTotal blocks 0 + 4 * kindTotal blocks 1 + kindTotal blocks 2 := by
      simp only [C₀, hsize]
      omega
    have hbase : ∀ b < blocks.length, LinesAgree ((blocks.map blockConstraints).getD b .empty)
          (kindCount blocks b 0) (kindCount blocks b 1) ∧
        ((blocks.map blockConstraints).getD b .empty).cols =
          4 * kindCount blocks b 0 + 4 * kindCount blocks b 1 + kindCount blocks b 2 := by
      intro b hb
      have hmem := getD_mem_of_lt default hb
      have hget : (blocks.map blockConstraints).getD b .empty =
          blockConstraints (blocks.getD b default) := by
        simp [List.getD_eq_getElem?_getD, List.getElem?_eq_getElem hb]
      rw [hget]
      exact blockConstraints_linesAgree (hbw _ hmem) (hb3 _ hmem) (hbfit _ hmem) (hbc _ hmem)
        (not_any_unimplemented.1 himpl _ hmem)
    have hv : fd.dofsPerVertex = (kindTotal blocks 0 : Int) := h0
    have hl : fd.dofsPerLine = (kindTotal blocks 1 : Int) := h1
    have hlines : LineRoom (kindTotal blocks 0) (kindTotal blocks 1) := by
      rw [hv, hl] at hroom
      exact ⟨by omega, by omega⟩
    rw [h3]
    refine (consistentAlongLines_eq_ok h3 ((isEmpty_blockDiagonal ..).trans hC) hv hl
      (by simp only [blockDiagonal]; omega) (by simp only [blockDiagonal]; omega)
      (by simp only [LineRoom] at hlines; omega)).2
      ⟨hlines, linesAgree_blockDiagonal hbase hrows hcols hb3 hnn⟩

end Compose

end FiniteElements.Element
