import FiniteElements.Proofs.Composite.Transfer

/-!
# The interface constraints of a composite

A store keeps the constraints its definition gives, as a read-only copy of the constraint size
(`constraints_of_assemble`), and hands them out unless its constraint size does not multiply to
zero as a machine word and it keeps none (`Store.interfaceConstraints_eq_ok`). A composite composes
its constraints from its blocks': none when its constraint size multiplies to zero as a machine
word or a block with face dofs lacks them, and otherwise the block-diagonal matrix of the blocks'
constraints on their rows and columns (`composeConstraints_eq_ok`), which the constraint layout
lists group by group and, in each group, block by block (`getElem?_decodeGroups`).

The sizes are machine words, and the product of the constraint size can wrap to zero. Then a
composite with face dofs keeps no constraints although every base with face dofs knows its own, and
hands them out without refusing (`wrappedFaceSystem_constraints`). When the bases' dofs and the
constraint matrix's entries number fewer than `2^63`, the constraint size is zero exactly in 1D or
without face dofs (`DofLayout.constraintsSize_cases`), and a composite knows its constraints
exactly when its bases with face dofs know theirs and exactly when it hands them out, block by
block (`composite_constraints`).

## Main definitions

* `FiniteElements.Element.groupCount`, `FiniteElements.Element.groupPosition`

## Main results

* `FiniteElements.Element.composeConstraints_eq_ok`, `FiniteElements.Element.getElem?_decodeGroups`
* `FiniteElements.Element.DofLayout.constraintsSize_cases`
* `FiniteElements.Element.CompositeRun.constraintsAreImplemented_iff`,
  `FiniteElements.Element.CompositeRun.interfaceConstraints_blockDiagonal`
* `FiniteElements.Element.composite_constraints`,
  `FiniteElements.Element.wrappedFaceSystem_constraints`
-/

set_option autoImplicit false

namespace FiniteElements.Element

open FiniteElements.Dense FiniteElements.Constraint FiniteElements.Numeric

/-! ### Stored and handed-out constraints -/

/-- The constraints a store keeps: none when its definition gives none, else a read-only copy of
the definition's, which has the layout's constraint size. -/
theorem constraints_of_assemble {d : Definition} {c : Cell.Hypercube} {tables : IndexTables}
    {faceMap : Option (List (List Nat))} {s : Store}
    (h : Store.assemble d c tables faceMap = .ok s) :
    s.constraints = (if d.constraints.isEmpty then .empty
        else d.constraints.copy.setReadOnly (some (d.name ++ " interface constraints"))) ∧
      (d.constraints.isEmpty = false →
        ((d.constraints.rows : Int), (d.constraints.cols : Int)) = d.layout.constraintsSize) := by
  obtain ⟨-, -, C', -, -, -, hC, -, rfl⟩ := Store.assemble_eq_ok h
  rcases storeConstraints_eq_ok.1 hC with ⟨hCe, rfl⟩ | ⟨hCe, hsize, -, rfl⟩
  · exact ⟨by simp only [hCe, if_true]; rfl, fun h => absurd hCe (by simp [h])⟩
  · have hcopy : d.constraints.copy.isEmpty = false := by
      rw [Matrix.copy_of_isEmpty_false hCe]
      exact hCe
    exact ⟨by simp [hCe, hcopy], fun _ => hsize⟩

/-- The constraints a store hands out from a definition that gives some have the shape and the
entries of the definition's. -/
theorem readOnlyCopy_of_assemble {d : Definition} {c : Cell.Hypercube} {tables : IndexTables}
    {faceMap : Option (List (List Nat))} {s : Store}
    (h : Store.assemble d c tables faceMap = .ok s) (hne : d.constraints.isEmpty = false) :
    s.constraints.readOnlyCopy.rows = d.constraints.rows ∧
      s.constraints.readOnlyCopy.cols = d.constraints.cols ∧
      s.constraints.readOnlyCopy.entry = d.constraints.entry := by
  rw [(constraints_of_assemble h).1, if_neg (by simp [hne]), Matrix.readOnlyCopy_rows,
    Matrix.readOnlyCopy_cols, Matrix.readOnlyCopy_entry, Matrix.entry_setReadOnly,
    Matrix.entry_copy, Matrix.copy_of_isEmpty_false hne]
  exact ⟨rfl, rfl, rfl⟩

/-- **A built store keeps constraints of its constraint size**, when it keeps any. -/
theorem Store.Built.constraints_shape {s : Store} (h : s.Built)
    (hne : s.constraints.isEmpty = false) :
    ((s.constraints.rows : Int), (s.constraints.cols : Int)) = s.layout.constraintsSize := by
  -- both ways of building end in assembling the store from a definition
  obtain ⟨d, c, tables, faceMap, hs⟩ : ∃ d c tables faceMap,
      Store.assemble d c tables faceMap = .ok s := by
    cases h with
    | simple _ h =>
      obtain ⟨c, tables, -, -, h⟩ := Store.ofDefinition_eq_ok h
      exact ⟨_, c, tables, none, h⟩
    | composite _ h =>
      obtain ⟨r⟩ := Store.composite_eq_ok h
      exact ⟨_, _, _, _, r.assemble_eq⟩
  have hdne : d.constraints.isEmpty = false := by
    cases hd : d.constraints.isEmpty
    · rfl
    · rw [(constraints_of_assemble hs).1, if_pos hd] at hne
      exact absurd hne (by decide)
  obtain ⟨hrows, hcols, -⟩ := readOnlyCopy_of_assemble hs hdne
  have hlayout : s.layout = d.layout := by
    obtain ⟨-, -, -, -, -, -, -, -, rfl⟩ := Store.assemble_eq_ok hs
    rfl
  rw [Matrix.readOnlyCopy_rows] at hrows
  rw [Matrix.readOnlyCopy_cols] at hcols
  rw [hrows, hcols, hlayout]
  exact (constraints_of_assemble hs).2 hdne

/-! ### Composing constraints -/

/-- **What composing constraints gives.** Nothing when the constraint size multiplies to zero as a
machine word or a block with face dofs lacks constraints; otherwise, of that size, the
block-diagonal matrix of the blocks' constraints on their rows and columns. -/
theorem composeConstraints_eq_ok {fd : DofLayout} {blocks : List Block} {C : Matrix}
    (h : composeConstraints fd blocks = .ok C) :
    (C = .empty ∧ (wrapWord (fd.constraintsSize.1 * fd.constraintsSize.2) = 0 ∨
        ¬∀ blk ∈ blocks, blk.store.layout.dofsPerFace ≠ 0 →
          blk.store.constraintsAreImplemented = true)) ∨
      (wrapWord (fd.constraintsSize.1 * fd.constraintsSize.2) ≠ 0 ∧
        (∀ blk ∈ blocks, blk.store.layout.dofsPerFace ≠ 0 →
          blk.store.constraintsAreImplemented = true) ∧
        0 < fd.constraintsSize.1 ∧ 0 < fd.constraintsSize.2 ∧
        C = blockDiagonal ⟨fd.constraintsSize.1.toNat, fd.constraintsSize.2.toNat,
            Array.replicate (fd.constraintsSize.1.toNat * fd.constraintsSize.2.toNat) 0, false,
            defaultName⟩
          (decodeGroups (rowGroups fd.dim) blocks) (decodeGroups (columnGroups fd.dim) blocks)
          (blocks.map blockConstraints)) := by
  unfold composeConstraints at h
  dsimp only at h
  by_cases h0 : wrapWord (fd.constraintsSize.1 * fd.constraintsSize.2) = 0
  · rw [if_pos (by simpa using h0)] at h
    simp only [pure, Except.pure, Except.ok.injEq] at h
    exact .inl ⟨h.symm, .inl h0⟩
  rw [if_neg (by simpa using h0)] at h
  by_cases himpl : (blocks.any fun blk =>
      blk.store.layout.dofsPerFace != 0 && !blk.store.constraintsAreImplemented) = true
  · rw [if_pos himpl] at h
    simp only [pure, Except.pure, Except.ok.injEq] at h
    exact .inl ⟨h.symm, .inr fun hall => not_any_unimplemented.2 hall himpl⟩
  have hall := not_any_unimplemented.1 himpl
  rw [if_neg himpl, mapM_blockConstraints hall, bind_eq_ok] at h
  obtain ⟨_, ⟨⟩, h⟩ := h
  rw [bind_eq_ok] at h
  obtain ⟨Z, hZ, h⟩ := h
  obtain ⟨hm, hn, rfl⟩ := Matrix.zeros_eq_ok (mapError_eq_ok.1 hZ)
  simp only [pure, Except.pure, Except.ok.injEq] at h
  exact .inr ⟨h0, hall, hm, hn, h.symm⟩

/-- **The interface constraints a store hands out**: a read-only copy of its own, unless its
constraint size does not multiply to zero as a machine word and it keeps none. -/
theorem Store.interfaceConstraints_eq_ok {s : Store} {C : Matrix} :
    s.interfaceConstraints = .ok C ↔
      (wrapWord (s.layout.constraintsSize.1 * s.layout.constraintsSize.2) = 0 ∨
        s.constraints.isEmpty = false) ∧ C = s.constraints.readOnlyCopy := by
  unfold Store.interfaceConstraints
  dsimp only
  rw [ite_report_bind_eq_ok]
  simp only [Bool.and_eq_true, bne_iff_ne, ne_eq, not_and, pure, Except.pure, Except.ok.injEq]
  cases s.constraints.isEmpty <;> simp [eq_comm (a := C)]

/-! ### Constraint groups -/

section Groups

/-- The dofs block `β` has in group `g` of a constraint layout: its dofs on one object of the
group's kind. -/
def groupCount (groups : List Group) (blocks : List Block) (β g : Nat) : Nat :=
  ((blocks.getD β default).store.layout.objectCounts.getD
    (groups.getD g default).objectDim 0).toNat

/-- Row (or column) `d` of block `β` in group `g` of a composite's constraint layout, counted group
by group, then block by block, then within the block. -/
def groupPosition (groups : List Group) (blocks : List Block) (g β d : Nat) : Nat :=
  groupStart (fun g => groupStart (groupCount groups blocks · g) blocks.length) g +
    groupStart (groupCount groups blocks · g) β + d

variable {groups : List Group} {blocks : List Block}

/-- Dof `d` of group `g` of one layout comes before the end of its last group. -/
theorem groupOffsets_add_lt {counts : List Int} (hnn : ∀ j, 0 ≤ counts.getD j 0) {g d : Nat}
    (hg : g < groups.length) (hd : d < (counts.getD (groups.getD g default).objectDim 0).toNat) :
    ((groupOffsets groups counts).getD g 0).toNat + d <
      ((groups.map fun grp => counts.getD grp.objectDim 0).sum).toNat := by
  have hoff : ((groupOffsets groups counts).getD g 0).toNat =
      ((List.range g).map fun j =>
        (counts.getD (groups.getD j default).objectDim 0).toNat).sum := by
    rw [getD_groupOffsets hg.le, ← natCast_sum_toNat _ fun j _ => hnn _, Int.toNat_natCast]
  have htot : ((groups.map fun grp => counts.getD grp.objectDim 0).sum).toNat =
      ((List.range groups.length).map fun j =>
        (counts.getD (groups.getD j default).objectDim 0).toNat).sum := by
    rw [← map_range_getD groups fun grp => counts.getD grp.objectDim 0,
      ← natCast_sum_toNat _ fun j _ => hnn _, Int.toNat_natCast]
  have := sum_range_add_le
    (n := fun j => (counts.getD (groups.getD j default).objectDim 0).toNat) hg
  omega

variable (hnn : ∀ blk ∈ blocks, ∀ j, 0 ≤ blk.store.layout.objectCounts.getD j 0)
include hnn

theorem decodeGroups_eq_groupwise :
    decodeGroups groups blocks = groupwise groups.length blocks.length (groupCount groups blocks) :=
  decodeGroups_eq groups hnn

theorem length_decodeGroups :
    (decodeGroups groups blocks).length =
      groupStart (fun g => groupStart (groupCount groups blocks · g) blocks.length)
        groups.length := by
  rw [decodeGroups_eq_groupwise hnn, length_groupwise]

/-- **Where a composite's constraint layout lists a block's dof**: row (or column) `d` of block `β`
in group `g` is, in the block, `d` past where group `g` starts in the block's own layout. -/
theorem getElem?_decodeGroups {g β d : Nat} (hg : g < groups.length) (hβ : β < blocks.length)
    (hd : d < groupCount groups blocks β g) :
    (decodeGroups groups blocks)[groupPosition groups blocks g β d]? =
      some ⟨β, ((groupOffsets groups (blocks.getD β default).store.layout.objectCounts).getD g
        0).toNat + d⟩ := by
  rw [decodeGroups_eq_groupwise hnn, groupPosition, getElem?_groupwise hg hβ hd]
  have hnn' := hnn _ (getD_mem_of_lt default hβ)
  rw [getD_groupOffsets hg.le, ← natCast_sum_toNat _ fun j _ => hnn' _, Int.toNat_natCast]
  rfl

end Groups

theorem objectDim_lt_of_mem_rowGroups {dim : Int} {grp : Group} (h : grp ∈ rowGroups dim) :
    (grp.objectDim : Int) < dim := by
  unfold rowGroups at h
  split_ifs at h with h2 h3
  · rw [beq_iff_eq] at h2
    simp only [List.mem_cons, List.not_mem_nil, or_false] at h
    rcases h with rfl | rfl | rfl <;> simp [Group.objectDim, h2]
  · rw [beq_iff_eq] at h3
    simp only [List.mem_append, List.mem_replicate] at h
    rcases h with (⟨-, rfl⟩ | ⟨-, rfl⟩) | ⟨-, rfl⟩ <;> simp [Group.objectDim, h3]
  · simp at h

theorem objectDim_lt_of_mem_columnGroups {dim : Int} {grp : Group} (h : grp ∈ columnGroups dim) :
    (grp.objectDim : Int) < dim := by
  unfold columnGroups at h
  split_ifs at h with h2 h3
  · rw [beq_iff_eq] at h2
    simp only [List.mem_cons, List.not_mem_nil, or_false] at h
    rcases h with rfl | rfl | rfl <;> simp [Group.objectDim, h2]
  · rw [beq_iff_eq] at h3
    simp only [List.mem_append, List.mem_replicate, List.mem_cons, List.not_mem_nil,
      or_false] at h
    rcases h with (⟨-, rfl⟩ | ⟨-, rfl⟩) | rfl <;> simp [Group.objectDim, h3]
  · simp at h

theorem objectCounts_getD_nonneg {fd : DofLayout} (hn : ∀ k, 0 ≤ fd.countOf k) (j : Nat) :
    0 ≤ fd.objectCounts.getD j 0 := by
  simp only [DofLayout.objectCounts, List.getD_eq_getElem?_getD, List.getElem?_take]
  split
  · exact hn j
  · rfl

theorem objectCounts_getD {fd : DofLayout} {k : Nat} (hk : (k : Int) ≤ fd.dim) :
    fd.objectCounts.getD k 0 = fd.countOf k := by
  simp only [DofLayout.objectCounts, DofLayout.countOf, List.getD_eq_getElem?_getD,
    List.getElem?_take]
  rw [if_pos (by omega)]

/-- Dof `d` of group `g` of a layout's constraint groups lies among the groups' dofs. -/
theorem groupOffsets_add_lt_sum {fd : DofLayout} (hn : ∀ k, 0 ≤ fd.countOf k)
    {groups : List Group} (hgroups : ∀ grp ∈ groups, (grp.objectDim : Int) < fd.dim) {g d : Nat}
    (hg : g < groups.length)
    (hd : d < (fd.objectCounts.getD (groups.getD g default).objectDim 0).toNat) :
    ((((groupOffsets groups fd.objectCounts).getD g 0).toNat + d : Nat) : Int) <
      (groups.map fun grp => fd.countOf grp.objectDim).sum := by
  have hlt := groupOffsets_add_lt (objectCounts_getD_nonneg hn) hg hd
  have hsum : (groups.map fun grp => fd.objectCounts.getD grp.objectDim 0) =
      groups.map fun grp => fd.countOf grp.objectDim :=
    List.map_congr_left fun grp hgrp => objectCounts_getD (by have := hgroups grp hgrp; omega)
  have hnn : 0 ≤ (groups.map fun grp => fd.countOf grp.objectDim).sum :=
    List.sum_nonneg fun x hx => by
      obtain ⟨grp, -, rfl⟩ := List.mem_map.1 hx
      exact hn _
  rw [hsum] at hlt
  omega

/-- A block's store is one of the bases. -/
theorem exists_of_mem_blocksOf {bases : List (Store × Nat)} {blk : Block}
    (h : blk ∈ blocksOf bases) : ∃ x ∈ bases, blk.store = x.1 := by
  obtain ⟨β, hβ, rfl⟩ := List.getElem_of_mem h
  have := store_getD_blocksOf hβ
  rwa [List.getD_eq_getElem?_getD, List.getElem?_eq_getElem hβ, Option.getD_some] at this

/-! ### Constraint sizes of layouts that fit a machine word -/

namespace DofLayout

variable {fd : DofLayout} {c : Cell.Hypercube} (hw : fd.Wf c) (hfit : fd.cellPrefix c 4 < 2 ^ 63)
include hw hfit

/-- **The constraint size of a layout that fits a machine word**: nothing in 1D or without face
dofs, and two positive sides otherwise. -/
theorem constraintsSize_cases :
    (fd.constraintsSize = (0, 0) ∧ (fd.dim = 1 ∨ fd.dofsPerFace = 0)) ∨
      (0 < fd.constraintsSize.1 ∧ 0 < fd.constraintsSize.2 ∧ fd.dim ≠ 1 ∧
        fd.dofsPerFace ≠ 0) := by
  have hdim := Cell.Hypercube.dim_of_ofDim? hw.cell
  have h0 := hw.count_nonneg 0
  have h1 := hw.count_nonneg 1
  have h2 := hw.count_nonneg 2
  rw [constraintsSize_eq hw hfit, (hw.exact hfit).2.2.2]
  cases c with
  | interval => simp [← hdim, Cell.Hypercube.dim]
  | square =>
    simp only [facePrefix, Cell.Hypercube.objectsPerFace, ← hdim, Cell.Hypercube.dim]
    simp [List.range_succ]
    omega
  | cube =>
    simp only [facePrefix, Cell.Hypercube.objectsPerFace, ← hdim, Cell.Hypercube.dim]
    simp [List.range_succ]
    omega

theorem constraintsSize_mul_eq_zero_iff :
    fd.constraintsSize.1 * fd.constraintsSize.2 = 0 ↔ fd.dim = 1 ∨ fd.dofsPerFace = 0 := by
  rcases constraintsSize_cases hw hfit with ⟨h, hz⟩ | ⟨hm, hn, h1, hf⟩
  · simp [h, hz]
  · simp only [h1, hf, or_self, iff_false]
    exact Int.mul_ne_zero (by omega) (by omega)

/-- **The rows of the constraint matrix are the dofs of its row groups.** -/
theorem sum_rowGroups :
    ((rowGroups fd.dim).map fun g => fd.countOf g.objectDim).sum = fd.constraintsSize.1 := by
  have hdim := Cell.Hypercube.dim_of_ofDim? hw.cell
  rw [constraintsSize_eq hw hfit]
  cases c <;> simp [rowGroups, ← hdim, Cell.Hypercube.dim, Group.objectDim] <;> ring

/-- **The columns of the constraint matrix are the dofs of its column groups.** -/
theorem sum_columnGroups :
    ((columnGroups fd.dim).map fun g => fd.countOf g.objectDim).sum = fd.constraintsSize.2 := by
  have hdim := Cell.Hypercube.dim_of_ofDim? hw.cell
  rw [constraintsSize_eq hw hfit]
  cases c <;> simp [columnGroups, ← hdim, Cell.Hypercube.dim, Group.objectDim] <;> ring

/-- **A layout with dofs on a kind of object its faces have has face dofs.** -/
theorem dofsPerFace_pos {k : Nat} (hk : (k : Int) < fd.dim) (hpos : 0 < fd.countOf k) :
    0 < fd.dofsPerFace := by
  have hdim := Cell.Hypercube.dim_of_ofDim? hw.cell
  have h0 := hw.count_nonneg 0
  have h1 := hw.count_nonneg 1
  have h2 := hw.count_nonneg 2
  rw [(hw.exact hfit).2.2.2]
  cases c <;> simp only [← hdim, Cell.Hypercube.dim] at hk <;> norm_cast at hk <;>
    interval_cases k <;> simp [facePrefix, Cell.Hypercube.objectsPerFace, List.range_succ] <;>
    omega

end DofLayout

/-! ### The constraints of a composite -/

namespace CompositeRun

variable {p : Packing} {specs : List (Option Store × Int)} {E : Store}
  (r : CompositeRun p specs E)

theorem constraints_isEmpty : E.constraints.isEmpty = r.definition.constraints.isEmpty := by
  rw [(constraints_of_assemble r.assemble_eq).1]
  cases h : r.definition.constraints.isEmpty with
  | true => rfl
  | false =>
    rw [if_neg (by simp), Matrix.copy_of_isEmpty_false h]
    exact h

/-- The composite keeps constraints exactly when its constraint size does not multiply to zero as a
machine word and every block with face dofs knows its own. -/
theorem constraints_isEmpty_eq_false_iff :
    E.constraints.isEmpty = false ↔
      wrapWord (E.layout.constraintsSize.1 * E.layout.constraintsSize.2) ≠ 0 ∧
        ∀ blk ∈ blocksOf r.bases, blk.store.layout.dofsPerFace ≠ 0 →
          blk.store.constraintsAreImplemented = true := by
  have hC := r.constraints_eq
  rw [← r.layout_store] at hC
  rw [r.constraints_isEmpty]
  rcases composeConstraints_eq_ok hC with ⟨hCe, hwhy⟩ | ⟨h0, hall, hm, hn, hCe⟩
  · rw [hCe]
    constructor
    · intro h
      exact absurd h (by decide)
    · rintro ⟨h0, hall⟩
      rcases hwhy with h | h
      · exact absurd h h0
      · exact absurd hall h
  · rw [hCe]
    refine ⟨fun _ => ⟨h0, hall⟩, fun _ => ?_⟩
    rw [isEmpty_blockDiagonal]
    simp only [Matrix.isEmpty, Bool.or_eq_false_iff, beq_eq_false_iff_ne]
    omega

/-- **When a composite knows its interface constraints**: in 1D, without face dofs, or when its
constraint size does not multiply to zero as a machine word and every block with face dofs knows
its own. -/
theorem constraintsAreImplemented_iff :
    E.constraintsAreImplemented = true ↔ E.layout.dim = 1 ∨ E.layout.dofsPerFace = 0 ∨
      (wrapWord (E.layout.constraintsSize.1 * E.layout.constraintsSize.2) ≠ 0 ∧
        ∀ blk ∈ blocksOf r.bases, blk.store.layout.dofsPerFace ≠ 0 →
          blk.store.constraintsAreImplemented = true) := by
  show (E.layout.dim == 1 || E.layout.dofsPerFace == 0 || !E.constraints.isEmpty) = true ↔ _
  rw [← r.constraints_isEmpty_eq_false_iff]
  simp only [Bool.or_eq_true, beq_iff_eq, Bool.not_eq_true', or_assoc]

/-- Every block is of the composite's dimension. -/
theorem dim_of_mem_blocksOf {blk : Block} (h : blk ∈ blocksOf r.bases) :
    blk.store.layout.dim = E.layout.dim := by
  obtain ⟨x, hx, hs⟩ := exists_of_mem_blocksOf h
  have hcell := Cell.Hypercube.dim_of_ofDim? r.layout_wf.1.cell
  rw [hs, ((checkBases_eq_ok r.checkBases_eq).2 x hx).2.1, r.layout_store, ← hcell,
    r.layout_wf.2.1]

/-- **The constraints of a composite with face dofs that knows them**: of positive size, with every
block with face dofs knowing its own, the block-diagonal matrix of the blocks' constraints. -/
theorem definition_constraints_eq (h1 : E.layout.dim ≠ 1) (hf : E.layout.dofsPerFace ≠ 0)
    (himpl : E.constraintsAreImplemented = true) :
    0 < E.layout.constraintsSize.1 ∧ 0 < E.layout.constraintsSize.2 ∧
      (∀ blk ∈ blocksOf r.bases, blk.store.layout.dofsPerFace ≠ 0 →
        blk.store.constraintsAreImplemented = true) ∧
      r.definition.constraints = blockDiagonal ⟨E.layout.constraintsSize.1.toNat,
          E.layout.constraintsSize.2.toNat, Array.replicate (E.layout.constraintsSize.1.toNat *
            E.layout.constraintsSize.2.toNat) 0, false, defaultName⟩
        (decodeGroups (rowGroups E.layout.dim) (blocksOf r.bases))
        (decodeGroups (columnGroups E.layout.dim) (blocksOf r.bases))
        ((blocksOf r.bases).map blockConstraints) := by
  have hC := r.constraints_eq
  rw [← r.layout_store] at hC
  obtain ⟨h0, hall⟩ :=
    ((r.constraintsAreImplemented_iff.1 himpl).resolve_left h1).resolve_left hf
  rcases composeConstraints_eq_ok hC with ⟨-, hwhy⟩ | ⟨-, -, hm, hn, hCe⟩
  · rcases hwhy with h | h
    · exact absurd h h0
    · exact absurd hall h
  · exact ⟨hm, hn, hall, hCe⟩

/-- The constraints a composite with face dofs hands out: the block-diagonal matrix it keeps. -/
theorem readOnlyCopy_constraints (h1 : E.layout.dim ≠ 1) (hf : E.layout.dofsPerFace ≠ 0)
    (himpl : E.constraintsAreImplemented = true) :
    E.constraints.readOnlyCopy.rows = E.layout.constraintsSize.1.toNat ∧
      E.constraints.readOnlyCopy.cols = E.layout.constraintsSize.2.toNat ∧
      r.definition.constraints.isEmpty = false ∧
      E.constraints.readOnlyCopy.entry = r.definition.constraints.entry := by
  obtain ⟨hm, hn, -, hD⟩ := r.definition_constraints_eq h1 hf himpl
  have hne : r.definition.constraints.isEmpty = false := by
    rw [hD, isEmpty_blockDiagonal]
    simp only [Matrix.isEmpty, Bool.or_eq_false_iff, beq_eq_false_iff_ne]
    omega
  obtain ⟨hrows, hcols, hentry⟩ := readOnlyCopy_of_assemble r.assemble_eq hne
  rw [hrows, hcols, hD]
  exact ⟨rfl, rfl, hD ▸ hne, hD ▸ hentry⟩

section Fits

variable (hwf : ∀ x ∈ r.bases, x.1.WellFormed)
include hwf

/-- The blocks with face dofs know their constraints exactly when the bases with face dofs do. -/
theorem blocks_implemented_iff :
    (∀ blk ∈ blocksOf r.bases, blk.store.layout.dofsPerFace ≠ 0 →
        blk.store.constraintsAreImplemented = true) ↔
      ∀ x ∈ r.bases, 0 < x.1.layout.dofsPerFace → x.1.constraintsAreImplemented = true := by
  have h := all_blocksOf_iff (fun s => s.layout.dofsPerFace == 0 || s.constraintsAreImplemented)
    fun x hx => ((checkBases_eq_ok r.checkBases_eq).2 x hx).1
  simp only [List.all_eq_true, Bool.or_eq_true, beq_iff_eq] at h
  constructor
  · intro hblk x hx hpos
    have := h.1 (fun blk hb => (em _).imp_right (hblk blk hb)) x hx
    exact this.resolve_left (by omega)
  · intro hbase blk hb hne
    refine (h.2 (fun x hx => ?_) blk hb).resolve_left hne
    by_cases h0 : x.1.layout.dofsPerFace = 0
    · exact .inl h0
    · exact .inr (hbase x hx (by have := (hwf x hx).face_nonneg; omega))

/-- A block has no more face dofs than the composite. -/
theorem dofsPerFace_le_of_mem {blk : Block} (hblk : blk ∈ blocksOf r.bases) :
    blk.store.layout.dofsPerFace ≤ E.layout.dofsPerFace := by
  have hnn : ∀ x ∈ (blocksOf r.bases).map (·.store.layout.dofsPerFace), 0 ≤ x := by
    intro x hx
    obtain ⟨b, hb, rfl⟩ := List.mem_map.1 hx
    exact (r.mem_wellFormed hwf hb).1.face_nonneg
  rw [r.dofsPerFace_eq hwf]
  exact List.single_le_sum hnn _ (List.mem_map_of_mem (f := (·.store.layout.dofsPerFace)) hblk)

/-- A composite with a block that has face dofs has face dofs. -/
theorem dofsPerFace_ne_zero_of_mem {blk : Block} (hblk : blk ∈ blocksOf r.bases)
    (hf : blk.store.layout.dofsPerFace ≠ 0) : E.layout.dofsPerFace ≠ 0 := by
  have hle := r.dofsPerFace_le_of_mem hwf hblk
  have hnn := (r.mem_wellFormed hwf hblk).1.face_nonneg
  omega

/-- In 1D or without face dofs every block with face dofs knows its constraints. -/
theorem blocks_implemented_of_dim_or_face (h : E.layout.dim = 1 ∨ E.layout.dofsPerFace = 0) :
    ∀ blk ∈ blocksOf r.bases, blk.store.layout.dofsPerFace ≠ 0 →
      blk.store.constraintsAreImplemented = true := by
  intro blk hblk hne
  rcases h with h1 | h0
  · -- every block is of the composite's dimension
    simp [Store.constraintsAreImplemented, r.dim_of_mem_blocksOf hblk, h1]
  · exact absurd h0 (r.dofsPerFace_ne_zero_of_mem hwf hblk hne)

theorem blocks_objectCounts_nonneg :
    ∀ blk ∈ blocksOf r.bases, ∀ j, 0 ≤ blk.store.layout.objectCounts.getD j 0 :=
  fun _ hblk => objectCounts_getD_nonneg (r.mem_wellFormed hwf hblk).1.layout_wf.count_nonneg

variable (hfit : ∀ blk ∈ blocksOf r.bases, blk.store.layout.cellPrefix r.cell 4 < 2 ^ 63)
include hfit

/-- A block with a dof in a group of a kind the faces have has face dofs. -/
theorem dofsPerFace_ne_zero_of_lt_groupCount {groups : List Group}
    (hgroups : ∀ grp ∈ groups, (grp.objectDim : Int) < E.layout.dim) {g β d : Nat}
    (hg : g < groups.length) (hβ : β < (blocksOf r.bases).length)
    (hd : d < groupCount groups (blocksOf r.bases) β g) :
    ((blocksOf r.bases).getD β default).store.layout.dofsPerFace ≠ 0 := by
  have hmem := getD_mem_of_lt default hβ
  obtain ⟨hS, hScell⟩ := r.mem_wellFormed hwf hmem
  have hSfit := hScell ▸ hfit _ hmem
  have hk := hgroups _ (getD_mem_of_lt default hg)
  rw [← r.dim_of_mem_blocksOf hmem] at hk
  rw [groupCount, objectCounts_getD hk.le] at hd
  exact (DofLayout.dofsPerFace_pos hS.layout_wf hSfit hk (by omega)).ne'

/-- In a group of a kind the faces have, the blocks' dofs are the composite's on one object of the
kind. -/
theorem groupStart_groupCount {groups : List Group}
    (hgroups : ∀ grp ∈ groups, (grp.objectDim : Int) < E.layout.dim) {g : Nat}
    (hg : g < groups.length) :
    groupStart (groupCount groups (blocksOf r.bases) · g) (blocksOf r.bases).length =
      (E.layout.countOf (groups.getD g default).objectDim).toNat := by
  have hk := hgroups _ (getD_mem_of_lt default hg)
  have hcell := Cell.Hypercube.dim_of_ofDim? r.layout_wf.1.cell
  rw [r.layout_store] at hk ⊢
  rw [r.toNat_countOf_of_sum hwf (r.sum_cellPrefix_of_fit hwf hfit) (by omega), groupStart,
    kindTotal, ← map_range_getD (blocksOf r.bases)]
  refine congrArg List.sum (List.map_congr_left fun β hβ => ?_)
  have hdim := r.dim_of_mem_blocksOf (getD_mem_of_lt default (List.mem_range.1 hβ))
  rw [r.layout_store] at hdim
  rw [groupCount, objectCounts_getD (by omega)]

/-- **A composite's constraint layout lists its dofs group by group**: as many as the composite has
on the groups' objects. -/
theorem length_decodeGroups_eq {groups : List Group}
    (hgroups : ∀ grp ∈ groups, (grp.objectDim : Int) < E.layout.dim) :
    ((decodeGroups groups (blocksOf r.bases)).length : Int) =
      (groups.map fun grp => E.layout.countOf grp.objectDim).sum := by
  rw [length_decodeGroups (r.blocks_objectCounts_nonneg hwf), groupStart,
    List.map_congr_left fun g hg => r.groupStart_groupCount hwf hfit hgroups
      (List.mem_range.1 hg),
    map_range_getD groups fun grp => (E.layout.countOf grp.objectDim).toNat]
  exact natCast_sum_toNat _ fun grp _ => r.layout_store ▸ r.layout_wf.1.count_nonneg _

variable (hsize : E.layout.constraintsSize.1 * E.layout.constraintsSize.2 < 2 ^ 63)
include hsize

/-- **With sizes that fit a machine word, the composite's constraint size multiplies to zero
exactly in 1D or without face dofs.** -/
theorem wrapWord_constraintsSize_eq_zero_iff :
    wrapWord (E.layout.constraintsSize.1 * E.layout.constraintsSize.2) = 0 ↔
      E.layout.dim = 1 ∨ E.layout.dofsPerFace = 0 := by
  have hw := r.layout_wf.1
  have hEfit := r.layout_cellPrefix_lt_of_sum hwf (r.sum_cellPrefix_of_fit hwf hfit)
  rw [r.layout_store] at hsize ⊢
  obtain ⟨hm, hn⟩ := constraintsSize_nonneg hw hEfit
  have hnn := Int.mul_nonneg hm hn
  rw [wrapWord_eq_self.2 ⟨by omega, hsize⟩, DofLayout.constraintsSize_mul_eq_zero_iff hw hEfit]

/-- **A composite knows its interface constraints exactly when its bases with face dofs know
theirs.** -/
theorem constraintsAreImplemented_iff_bases :
    E.constraintsAreImplemented = true ↔
      ∀ x ∈ r.bases, 0 < x.1.layout.dofsPerFace → x.1.constraintsAreImplemented = true := by
  rw [r.constraintsAreImplemented_iff, ← r.blocks_implemented_iff hwf]
  constructor
  · rintro (h | h | ⟨-, hall⟩)
    · exact r.blocks_implemented_of_dim_or_face hwf (.inl h)
    · exact r.blocks_implemented_of_dim_or_face hwf (.inr h)
    · exact hall
  · intro hall
    by_cases h : E.layout.dim = 1 ∨ E.layout.dofsPerFace = 0
    · exact h.elim .inl (.inr ∘ .inl)
    · have h0 := (r.wrapWord_constraintsSize_eq_zero_iff hwf hfit hsize).not.2 h
      exact .inr (.inr ⟨h0, hall⟩)

/-- **A composite knows its interface constraints exactly when it hands them out.** -/
theorem constraintsAreImplemented_iff_isOk :
    E.constraintsAreImplemented = true ↔ ∃ C, E.interfaceConstraints = .ok C := by
  simp only [Store.interfaceConstraints_eq_ok, exists_eq_right]
  rw [r.constraintsAreImplemented_iff, r.constraints_isEmpty_eq_false_iff,
    r.wrapWord_constraintsSize_eq_zero_iff hwf hfit hsize]
  tauto

/-- A composite of at least two dimensions that knows its constraints hands out the matrix it
keeps, of its constraint size. -/
theorem interfaceConstraints_readOnlyCopy (himpl : E.constraintsAreImplemented = true)
    (h1 : E.layout.dim ≠ 1) :
    E.interfaceConstraints = .ok E.constraints.readOnlyCopy ∧
      ((E.constraints.readOnlyCopy.rows : Int), (E.constraints.readOnlyCopy.cols : Int)) =
        E.layout.constraintsSize := by
  have hw := r.layout_wf.1
  have hEfit := r.layout_cellPrefix_lt_of_sum hwf (r.sum_cellPrefix_of_fit hwf hfit)
  rw [← r.layout_store] at hw hEfit
  refine ⟨Store.interfaceConstraints_eq_ok.2 ⟨(Store.interfaceConstraints_eq_ok.1
    ((r.constraintsAreImplemented_iff_isOk hwf hfit hsize).1 himpl).choose_spec).1, rfl⟩, ?_⟩
  -- without face dofs nothing is kept; otherwise the kept matrix has the constraint size
  rcases DofLayout.constraintsSize_cases hw hEfit with ⟨hsz, hz⟩ | ⟨hm, hn, -, hf⟩
  · have hempty : r.definition.constraints.isEmpty = true := by
      rw [← r.constraints_isEmpty]
      by_contra hne
      have := ((r.constraints_isEmpty_eq_false_iff).1 (by simpa using hne)).1
      exact this ((r.wrapWord_constraintsSize_eq_zero_iff hwf hfit hsize).2 hz)
    rw [(constraints_of_assemble r.assemble_eq).1, if_pos hempty, hsz]
    rfl
  · obtain ⟨hrows, hcols, -⟩ := r.readOnlyCopy_constraints h1 hf himpl
    rw [hrows, hcols]
    exact Prod.ext (by simp; omega) (by simp; omega)

variable (hshape : ∀ x ∈ r.bases, x.1.constraints.isEmpty = false →
  ((x.1.constraints.rows : Int), (x.1.constraints.cols : Int)) = x.1.layout.constraintsSize)
include hshape

omit hsize in
/-- **A block with face dofs of a composite that knows its constraints** hands out the constraints
it keeps, with as many rows and columns as its row and column groups have dofs. -/
theorem block_constraints (himpl : E.constraintsAreImplemented = true) (h1 : E.layout.dim ≠ 1)
    {blk : Block} (hblk : blk ∈ blocksOf r.bases) (hf : blk.store.layout.dofsPerFace ≠ 0) :
    blk.store.interfaceConstraints = .ok blk.store.constraints.readOnlyCopy ∧
      blockConstraints blk = blk.store.constraints.readOnlyCopy ∧
      blk.store.constraints.readOnlyCopy.isEmpty = false ∧
      (blk.store.constraints.readOnlyCopy.rows : Int) =
        ((rowGroups E.layout.dim).map fun grp => blk.store.layout.countOf grp.objectDim).sum ∧
      (blk.store.constraints.readOnlyCopy.cols : Int) =
        ((columnGroups E.layout.dim).map fun grp =>
          blk.store.layout.countOf grp.objectDim).sum := by
  obtain ⟨-, -, hall, -⟩ :=
    r.definition_constraints_eq h1 (r.dofsPerFace_ne_zero_of_mem hwf hblk hf) himpl
  have himplS := hall blk hblk hf
  have hdim := r.dim_of_mem_blocksOf hblk
  have hne : blk.store.constraints.isEmpty = false := by
    simpa [Store.constraintsAreImplemented, hdim, h1, hf] using himplS
  obtain ⟨x, hx, hs⟩ := exists_of_mem_blocksOf hblk
  obtain ⟨hS, hScell⟩ := r.mem_wellFormed hwf hblk
  have hSfit : blk.store.layout.cellPrefix blk.store.cell 4 < 2 ^ 63 := hScell ▸ hfit blk hblk
  have hSsize := hshape x hx (hs ▸ hne)
  rw [← hs, Prod.mk.injEq] at hSsize
  refine ⟨Store.interfaceConstraints_of_implemented himplS hf, by simp [blockConstraints, hf], ?_,
    ?_, ?_⟩
  · simpa [Matrix.isEmpty] using hne
  · rw [Matrix.readOnlyCopy_rows, ← hdim, DofLayout.sum_rowGroups hS.layout_wf hSfit]
    exact hSsize.1
  · rw [Matrix.readOnlyCopy_cols, ← hdim, DofLayout.sum_columnGroups hS.layout_wf hSfit]
    exact hSsize.2

omit hsize in
/-- The entry of a composite's constraints at row `d` of block `β` in row group `g` and column `e`
of block `β'` in column group `h`, counted group by group, then block by block: block `β`'s own
entry at the same dofs of the same groups when `β = β'`, and `+0` otherwise. -/
theorem readOnlyCopy_entry_groupPosition (himpl : E.constraintsAreImplemented = true)
    (h1 : E.layout.dim ≠ 1) :
    ∀ g < (rowGroups E.layout.dim).length, ∀ h < (columnGroups E.layout.dim).length,
      ∀ β < (blocksOf r.bases).length, ∀ β' < (blocksOf r.bases).length,
      ∀ d < groupCount (rowGroups E.layout.dim) (blocksOf r.bases) β g,
      ∀ e < groupCount (columnGroups E.layout.dim) (blocksOf r.bases) β' h,
        ∃ Cβ, ((blocksOf r.bases).getD β default).store.interfaceConstraints = .ok Cβ ∧
          groupPosition (rowGroups E.layout.dim) (blocksOf r.bases) g β d <
            E.constraints.readOnlyCopy.rows ∧
          groupPosition (columnGroups E.layout.dim) (blocksOf r.bases) h β' e <
            E.constraints.readOnlyCopy.cols ∧
          E.constraints.readOnlyCopy.entry
              (groupPosition (rowGroups E.layout.dim) (blocksOf r.bases) g β d)
              (groupPosition (columnGroups E.layout.dim) (blocksOf r.bases) h β' e) =
            if β = β' then
              Cβ.entry (((groupOffsets (rowGroups E.layout.dim)
                  ((blocksOf r.bases).getD β default).store.layout.objectCounts).getD g
                    0).toNat + d)
                (((groupOffsets (columnGroups E.layout.dim)
                  ((blocksOf r.bases).getD β default).store.layout.objectCounts).getD h
                    0).toNat + e)
            else .ok 0 := by
  intro g hg h hh β hβ β' hβ' d hd e he
  have hw := r.layout_wf.1
  have hEfit := r.layout_cellPrefix_lt_of_sum hwf (r.sum_cellPrefix_of_fit hwf hfit)
  rw [← r.layout_store] at hw hEfit
  have hrowk : ∀ grp ∈ rowGroups E.layout.dim, (grp.objectDim : Int) < E.layout.dim :=
    fun _ => objectDim_lt_of_mem_rowGroups
  have hcolk : ∀ grp ∈ columnGroups E.layout.dim, (grp.objectDim : Int) < E.layout.dim :=
    fun _ => objectDim_lt_of_mem_columnGroups
  have hmem := getD_mem_of_lt default hβ
  -- block `β` has a dof in a face group, so it and the composite have face dofs
  have hfβ := r.dofsPerFace_ne_zero_of_lt_groupCount hwf hfit hrowk hg hβ hd
  have hf := r.dofsPerFace_ne_zero_of_mem hwf hmem hfβ
  obtain ⟨hm, hn, -, hD⟩ := r.definition_constraints_eq h1 hf himpl
  obtain ⟨hrows, hcols, hne, hentry⟩ := r.readOnlyCopy_constraints h1 hf himpl
  obtain ⟨hβC, hβblk, hβne, hβrows, hβcols⟩ :=
    r.block_constraints hwf hfit hshape himpl h1 hmem hfβ
  -- where the row and the column sit in the composite's constraint layout
  have hnn := r.blocks_objectCounts_nonneg hwf
  have hrow := getElem?_decodeGroups hnn hg hβ hd
  have hcol := getElem?_decodeGroups hnn hh hβ' he
  have hlenR := r.length_decodeGroups_eq hwf hfit hrowk
  have hlenC := r.length_decodeGroups_eq hwf hfit hcolk
  rw [DofLayout.sum_rowGroups hw hEfit] at hlenR
  rw [DofLayout.sum_columnGroups hw hEfit] at hlenC
  have hi := (List.getElem?_eq_some_iff.1 hrow).1
  have hj := (List.getElem?_eq_some_iff.1 hcol).1
  have hi' : groupPosition (rowGroups E.layout.dim) (blocksOf r.bases) g β d <
      E.layout.constraintsSize.1.toNat := by omega
  have hj' : groupPosition (columnGroups E.layout.dim) (blocksOf r.bases) h β' e <
      E.layout.constraintsSize.2.toNat := by omega
  refine ⟨_, hβC, hrows ▸ hi', hcols ▸ hj', ?_⟩
  rw [hentry, hD, Matrix.entry_of_lt (hD ▸ hne) hi' hj', get_blockDiagonal hi' hj' hrow hcol]
  split_ifs with hββ'
  · -- one block: its own entry, at dofs inside its own constraints
    subst hββ'
    obtain ⟨hS, -⟩ := r.mem_wellFormed hwf hmem
    have hdim := r.dim_of_mem_blocksOf hmem
    have hget : ((blocksOf r.bases).map blockConstraints).getD β .empty =
        blockConstraints ((blocksOf r.bases).getD β default) := by
      simp [List.getD_eq_getElem?_getD, List.getElem?_eq_getElem hβ]
    have hr := groupOffsets_add_lt_sum hS.layout_wf.count_nonneg
      (fun grp hgrp => hdim ▸ hrowk grp hgrp) hg hd
    have hc := groupOffsets_add_lt_sum hS.layout_wf.count_nonneg
      (fun grp hgrp => hdim ▸ hcolk grp hgrp) hh he
    rw [← hβrows] at hr
    rw [← hβcols] at hc
    dsimp only
    rw [hget, hβblk, ← Nat.cast_add, ← Nat.cast_add,
      Matrix.entry_of_lt hβne (by omega) (by omega)]
  · rfl

/-- **The interface constraints of a composite are block diagonal.** A composite of at least two
dimensions that knows its constraints hands out a matrix of its constraint size. Its entry at row
`d` of block `β` in row group `g` and column `e` of block `β'` in column group `h`, counted group by
group, then block by block, is the entry of block `β`'s own constraints at the same dofs of the
same groups when `β = β'`, and `+0` otherwise. -/
theorem interfaceConstraints_blockDiagonal (himpl : E.constraintsAreImplemented = true)
    (h2 : 2 ≤ E.layout.dim) :
    ∃ C, E.interfaceConstraints = .ok C ∧
      ((C.rows : Int), (C.cols : Int)) = E.layout.constraintsSize ∧
      ∀ g < (rowGroups E.layout.dim).length, ∀ h < (columnGroups E.layout.dim).length,
      ∀ β < (blocksOf r.bases).length, ∀ β' < (blocksOf r.bases).length,
      ∀ d < groupCount (rowGroups E.layout.dim) (blocksOf r.bases) β g,
      ∀ e < groupCount (columnGroups E.layout.dim) (blocksOf r.bases) β' h,
        ∃ Cβ, ((blocksOf r.bases).getD β default).store.interfaceConstraints = .ok Cβ ∧
          groupPosition (rowGroups E.layout.dim) (blocksOf r.bases) g β d < C.rows ∧
          groupPosition (columnGroups E.layout.dim) (blocksOf r.bases) h β' e < C.cols ∧
          C.entry (groupPosition (rowGroups E.layout.dim) (blocksOf r.bases) g β d)
              (groupPosition (columnGroups E.layout.dim) (blocksOf r.bases) h β' e) =
            if β = β' then
              Cβ.entry (((groupOffsets (rowGroups E.layout.dim)
                  ((blocksOf r.bases).getD β default).store.layout.objectCounts).getD g
                    0).toNat + d)
                (((groupOffsets (columnGroups E.layout.dim)
                  ((blocksOf r.bases).getD β default).store.layout.objectCounts).getD h
                    0).toNat + e)
            else .ok 0 := by
  have h1 : E.layout.dim ≠ 1 := by omega
  obtain ⟨hC, hsz⟩ := r.interfaceConstraints_readOnlyCopy hwf hfit hsize himpl h1
  exact ⟨_, hC, hsz, r.readOnlyCopy_entry_groupPosition hwf hfit hshape himpl h1⟩

end Fits

end CompositeRun

/-- **The interface constraints of a composite of bases that fit a machine word.** Take a
composite of built bases whose dofs, and whose constraint matrix's entries, number fewer than
`2^63`. It knows its interface constraints exactly when every base with face dofs knows its own, and
exactly when it hands them out. Then, in two or three dimensions, it hands out a matrix of its
constraint size whose entry at row `d` of block `β` in row group `g` and column `e` of block `β'` in
column group `h`, counted group by group, then block by block, is block `β`'s entry at the same
dofs of the same groups when `β = β'`, and `+0` otherwise. -/
theorem composite_constraints {p : Packing} {bases : List (Store × Nat)} {E : Store}
    (h : Store.composite p (asSpecs bases) = .ok E) (hbuilt : ∀ x ∈ bases, x.1.Built)
    (hfit : ∀ x ∈ bases, x.1.layout.cellPrefix x.1.cell 4 < 2 ^ 63)
    (hsize : E.layout.constraintsSize.1 * E.layout.constraintsSize.2 < 2 ^ 63) :
    (E.constraintsAreImplemented = true ↔
        ∀ x ∈ bases, 0 < x.1.layout.dofsPerFace → x.1.constraintsAreImplemented = true) ∧
      (E.constraintsAreImplemented = true ↔ ∃ C, E.interfaceConstraints = .ok C) ∧
      (E.constraintsAreImplemented = true → 2 ≤ E.layout.dim → ∃ C,
        E.interfaceConstraints = .ok C ∧
        ((C.rows : Int), (C.cols : Int)) = E.layout.constraintsSize ∧
        ∀ g < (rowGroups E.layout.dim).length, ∀ h < (columnGroups E.layout.dim).length,
        ∀ β < (blocksOf bases).length, ∀ β' < (blocksOf bases).length,
        ∀ d < groupCount (rowGroups E.layout.dim) (blocksOf bases) β g,
        ∀ e < groupCount (columnGroups E.layout.dim) (blocksOf bases) β' h,
          ∃ Cβ, ((blocksOf bases).getD β default).store.interfaceConstraints = .ok Cβ ∧
            groupPosition (rowGroups E.layout.dim) (blocksOf bases) g β d < C.rows ∧
            groupPosition (columnGroups E.layout.dim) (blocksOf bases) h β' e < C.cols ∧
            C.entry (groupPosition (rowGroups E.layout.dim) (blocksOf bases) g β d)
                (groupPosition (columnGroups E.layout.dim) (blocksOf bases) h β' e) =
              if β = β' then
                Cβ.entry (((groupOffsets (rowGroups E.layout.dim)
                    ((blocksOf bases).getD β default).store.layout.objectCounts).getD g
                    0).toNat + d)
                  (((groupOffsets (columnGroups E.layout.dim)
                    ((blocksOf bases).getD β default).store.layout.objectCounts).getD h
                    0).toNat + e)
              else .ok 0) := by
  obtain ⟨r⟩ := Store.composite_eq_ok h
  -- the run checked exactly the given bases
  have hb : bases = r.bases := asSpecs_injective (checkBases_eq_ok r.checkBases_eq).1
  rw [hb] at hbuilt hfit ⊢
  have hwf : ∀ x ∈ r.bases, x.1.WellFormed := fun x hx => (hbuilt x hx).wellFormed
  have hfit' : ∀ blk ∈ blocksOf r.bases, blk.store.layout.cellPrefix r.cell 4 < 2 ^ 63 := by
    intro blk hblk
    obtain ⟨x, hx, hs⟩ := exists_of_mem_blocksOf hblk
    rw [← (r.mem_wellFormed hwf hblk).2, hs]
    exact hfit x hx
  have hshape := fun x hx => (hbuilt x hx).constraints_shape
  exact ⟨r.constraintsAreImplemented_iff_bases hwf hfit' hsize,
    r.constraintsAreImplemented_iff_isOk hwf hfit' hsize,
    r.interfaceConstraints_blockDiagonal hwf hfit' hsize hshape⟩

/-! ### Composites whose sizes fit, and one whose sizes wrap -/

/-- The bilinear element on the square. -/
def bilinear : Store := (okValue (FiniteElements.Family.continuous 2 1)).store

/-- Two copies of the bilinear element, blocked. -/
def bilinearPair : Store := okValue (Store.composite .blocked (asSpecs [(bilinear, 2)]))

theorem bilinearPair_constraints :
    Store.composite .blocked (asSpecs [(bilinear, 2)]) = .ok bilinearPair ∧
      (∀ x ∈ [(bilinear, 2)], x.1.Built) ∧
      (∀ x ∈ [(bilinear, 2)], x.1.layout.cellPrefix x.1.cell 4 < 2 ^ 63) ∧
      bilinearPair.layout.constraintsSize.1 * bilinearPair.layout.constraintsSize.2 < 2 ^ 63 ∧
      (bilinearPair.constraintsAreImplemented = true ↔
        ∀ x ∈ [(bilinear, 2)], 0 < x.1.layout.dofsPerFace →
          x.1.constraintsAreImplemented = true) ∧
      (bilinearPair.constraintsAreImplemented = true ↔
        ∃ C, bilinearPair.interfaceConstraints = .ok C) ∧
      (bilinearPair.constraintsAreImplemented = true → 2 ≤ bilinearPair.layout.dim → ∃ C,
        bilinearPair.interfaceConstraints = .ok C ∧
        ((C.rows : Int), (C.cols : Int)) = bilinearPair.layout.constraintsSize ∧
        ∀ g < (rowGroups bilinearPair.layout.dim).length,
        ∀ h < (columnGroups bilinearPair.layout.dim).length,
        ∀ β < (blocksOf [(bilinear, 2)]).length, ∀ β' < (blocksOf [(bilinear, 2)]).length,
        ∀ d < groupCount (rowGroups bilinearPair.layout.dim) (blocksOf [(bilinear, 2)]) β g,
        ∀ e < groupCount (columnGroups bilinearPair.layout.dim) (blocksOf [(bilinear, 2)]) β' h,
          ∃ Cβ, ((blocksOf [(bilinear, 2)]).getD β default).store.interfaceConstraints = .ok Cβ ∧
            groupPosition (rowGroups bilinearPair.layout.dim) (blocksOf [(bilinear, 2)]) g β d <
              C.rows ∧
            groupPosition (columnGroups bilinearPair.layout.dim) (blocksOf [(bilinear, 2)]) h β' e <
              C.cols ∧
            C.entry (groupPosition (rowGroups bilinearPair.layout.dim) (blocksOf [(bilinear, 2)])
                  g β d)
                (groupPosition (columnGroups bilinearPair.layout.dim) (blocksOf [(bilinear, 2)])
                  h β' e) =
              if β = β' then
                Cβ.entry (((groupOffsets (rowGroups bilinearPair.layout.dim)
                    ((blocksOf [(bilinear, 2)]).getD β default).store.layout.objectCounts).getD g
                      0).toNat + d)
                  (((groupOffsets (columnGroups bilinearPair.layout.dim)
                    ((blocksOf [(bilinear, 2)]).getD β default).store.layout.objectCounts).getD h
                      0).toNat + e)
              else .ok 0) := by
  have heq : Store.composite .blocked (asSpecs [(bilinear, 2)]) = .ok bilinearPair :=
    eq_ok_okValue (by decide)
  have hbuilt : ∀ x ∈ [(bilinear, 2)], x.1.Built := by
    simp only [List.mem_singleton, forall_eq]
    exact FiniteElements.Family.continuous_built (eq_ok_okValue (by decide))
  have hfit : ∀ x ∈ [(bilinear, 2)], x.1.layout.cellPrefix x.1.cell 4 < 2 ^ 63 := by decide
  have hsize : bilinearPair.layout.constraintsSize.1 * bilinearPair.layout.constraintsSize.2 <
      2 ^ 63 := by decide
  exact ⟨heq, hbuilt, hfit, hsize, composite_constraints heq hbuilt hfit hsize⟩

/-- The element on the cube with `2515465100960393399`, `10`, `8384883669867977980` and
`3353953467947191273` dofs per vertex, line, quadrilateral and hexahedron: its one dof per cell and
its face dofs are counts that wrap as machine words, to one and to none. -/
def wrappedFaceDefinition : Definition :=
  { name := "Custom",
    layout := okValue (DofLayout.ofCounts? 3
      [2515465100960393399, 10, 8384883669867977980, 3353953467947191273] 1 0)
    additive := [false], masks := [⟨[true]⟩] }

def wrappedFace : Store := okValue (Store.ofDefinition wrappedFaceDefinition)

/-- The trilinear element on the cube. -/
def trilinear : Store := (okValue (FiniteElements.Family.continuous 3 1)).store

/-- The wrapped element beside the trilinear element, blocked. -/
def wrappedFaceSystem : Store :=
  okValue (Store.composite .blocked (asSpecs [(wrappedFace, 1), (trilinear, 1)]))

/-- The wrapped element is built from its counts. -/
theorem wrappedFace_built : wrappedFace.Built := by
  have hfd : DofLayout.ofCounts? 3
      [2515465100960393399, 10, 8384883669867977980, 3353953467947191273] 1 0 =
        .ok wrappedFaceDefinition.layout := eq_ok_okValue (by decide)
  exact .simple hfd (eq_ok_okValue (by decide))

set_option maxRecDepth 100000 in
/-- The trilinear element is a member of the continuous family. -/
theorem trilinear_built : trilinear.Built :=
  FiniteElements.Family.continuous_built (eq_ok_okValue (by decide))

set_option maxRecDepth 100000 in
/-- **A composite can lack constraints that all its bases know, and still hand them out.** The
composite's vertex and quadrilateral counts wrap, so its constraint size multiplies to `-2^63 · 4`,
which is zero as a machine word: no constraints are composed, though its one base with face dofs,
the trilinear element, knows its own, and none are refused when asked for. -/
theorem wrappedFaceSystem_constraints :
    Store.composite .blocked (asSpecs [(wrappedFace, 1), (trilinear, 1)]) =
        .ok wrappedFaceSystem ∧
      (∀ x ∈ [(wrappedFace, 1), (trilinear, 1)], x.1.Built) ∧
      (∀ x ∈ [(wrappedFace, 1), (trilinear, 1)], 0 < x.1.layout.dofsPerFace →
        x.1.constraintsAreImplemented = true) ∧
      wrappedFaceSystem.constraintsAreImplemented = false ∧
      ∃ C, wrappedFaceSystem.interfaceConstraints = .ok C := by
  refine ⟨eq_ok_okValue (by decide), ?_, by decide, by decide, _, eq_ok_okValue (by decide)⟩
  simp only [List.mem_cons, List.not_mem_nil, or_false, forall_eq_or_imp, forall_eq]
  exact ⟨wrappedFace_built, trilinear_built⟩

end FiniteElements.Element
