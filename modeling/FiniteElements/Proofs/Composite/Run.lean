import FiniteElements.Proofs.Composite.Blocks
import FiniteElements.Proofs.Element.Assemble

/-!
# A successful composite, step by step

Building a composite checks its bases (`checkBase`), lays out the blocks, sums their dof counts
into a layout, lists the composite's cell and face dofs in their blocks under the packing, reads
off each composite dof's mask and additivity from its block, checks the result as a definition,
composes transfer matrices and constraints, tabulates its index tables and assembles the store.

`CompositeRun` records every intermediate value of one successful construction with the equation
that produced it, and `Store.composite_eq_ok` gives it for every composite that is built. Every
later fact about composites starts from a run.

## Main definitions

* `leadDim`, `summedCounts`, `summedComponents`, `maxDegree`: the composite's layout data.
* `FiniteElements.Element.CompositeRun`

## Main results

* `checkBase_eq_ok`, `checkBases_eq_ok`, `checkBases_asSpecs`
* `Store.composite_eq_ok`
-/

namespace FiniteElements.Element

set_option autoImplicit false

open FiniteElements.Cell FiniteElements.Dense

deriving instance ReflBEq, LawfulBEq for Packing

/-- The dimension of the first base, that of the composite. -/
def leadDim (bases : List (Store × Nat)) : Int := (bases.head?.map fun p => p.1.layout.dim).getD 0

/-- The dofs of each object kind up to `dim`, summed over the blocks as machine words. -/
def summedCounts (blocks : List Block) (dim : Int) : List Int :=
  (List.range (dim.toNat + 1)).map fun k =>
    Numeric.wrapWord (blocks.map fun blk => blk.store.layout.countOf k).sum

/-- The components of all blocks. -/
def summedComponents (blocks : List Block) : Int := (blocks.map fun blk => blk.store.components).sum

/-- The highest degree of the bases. -/
def maxDegree (bases : List (Store × Nat)) : Int :=
  bases.foldl (fun d p => max d p.1.layout.degree) 0

section Bases

variable {p : Packing} {dim0 : Int}

/-- **The checks of one base.** It is present, of multiplicity at least one, of the first base's
dimension unless it is the first, and numbered object kind by object kind when interleaved. -/
theorem checkBase_eq_ok {spec : (Option Store × Int) × Nat} {x : Store × Nat} :
    checkBase p dim0 spec = .ok x ↔ ∃ s, spec.1.1 = some s ∧ 1 ≤ spec.1.2 ∧
      (spec.2 ≠ 0 → s.layout.dim = dim0) ∧ (p = .interleaved → s.entityOrdered = true) ∧
      x = (s, spec.1.2.toNat) := by
  obtain ⟨⟨s?, m⟩, b⟩ := spec
  cases s? with
  | none => simp [checkBase, throw, throwThe, MonadExceptOf.throw]
  | some s =>
    simp only [checkBase, ite_throw_bind_eq_ok]
    simp only [Bool.and_eq_true, bne_iff_ne, ne_eq, beq_iff_eq, Bool.not_eq_eq_eq_not,
      Bool.not_true, not_and, Option.some.injEq, exists_eq_left', pure, Except.pure,
      Except.ok.injEq, not_lt, not_not]
    constructor
    · rintro ⟨hm, hd, he, rfl⟩
      exact ⟨hm, hd, fun hp => by simpa using he hp, rfl⟩
    · rintro ⟨hm, hd, he, rfl⟩
      exact ⟨hm, hd, fun hp => by simp [he hp], rfl⟩

/-- The bases after the first are checked against the first base's dimension. -/
private theorem mapM_checkBase_eq_ok :
    ∀ {specs : List (Option Store × Int)} {n : Nat} {bases : List (Store × Nat)}, 1 ≤ n →
      (specs.zipIdx n).mapM (checkBase p dim0) = .ok bases →
      specs = asSpecs bases ∧ ∀ x ∈ bases, 0 < x.2 ∧ x.1.layout.dim = dim0 ∧
        (p = .interleaved → x.1.entityOrdered = true)
  | [], _, bases, _, h => by
    cases mapM_eq_ok.1 h
    simp [asSpecs]
  | spec :: specs, n, bases, hn, h => by
    rw [List.zipIdx_cons, List.mapM_cons, bind_eq_ok] at h
    obtain ⟨y, hy, h⟩ := h
    rw [bind_eq_ok] at h
    obtain ⟨ys, hys, h⟩ := h
    cases h
    obtain ⟨s, hs, hm, hd, he, rfl⟩ := checkBase_eq_ok.1 hy
    obtain ⟨hrest, hall⟩ := mapM_checkBase_eq_ok (Nat.le_succ_of_le hn) hys
    obtain ⟨s?, m⟩ := spec
    simp only at hs hm hd
    refine ⟨?_, fun x hx => ?_⟩
    · subst hs hrest
      simp [asSpecs, Int.toNat_of_nonneg (by omega : (0 : Int) ≤ m)]
    · rcases List.mem_cons.1 hx with rfl | hx
      · exact ⟨by simp; omega, hd (by omega), he⟩
      · exact hall x hx

/-- **Checked bases.** A successful check returns every base with its multiplicity, each at
least one, all of the first base's dimension, and numbered object kind by object kind when
interleaved. -/
theorem checkBases_eq_ok {specs : List (Option Store × Int)} {bases : List (Store × Nat)}
    (h : checkBases p specs = .ok bases) :
    specs = asSpecs bases ∧ ∀ x ∈ bases, 0 < x.2 ∧ x.1.layout.dim = leadDim bases ∧
      (p = .interleaved → x.1.entityOrdered = true) := by
  unfold checkBases at h
  cases specs with
  | nil =>
    cases mapM_eq_ok.1 h
    simp [asSpecs]
  | cons spec specs =>
    rw [List.zipIdx_cons, List.mapM_cons, bind_eq_ok] at h
    obtain ⟨y, hy, h⟩ := h
    rw [bind_eq_ok] at h
    obtain ⟨ys, hys, h⟩ := h
    cases h
    obtain ⟨s, hs, hm, -, he, rfl⟩ := checkBase_eq_ok.1 hy
    obtain ⟨s?, m⟩ := spec
    simp only at hs hm
    subst hs
    obtain ⟨hrest, hall⟩ := mapM_checkBase_eq_ok (le_refl 1) hys
    refine ⟨?_, fun x hx => ?_⟩
    · subst hrest
      simp [asSpecs, Int.toNat_of_nonneg (by omega : (0 : Int) ≤ m)]
    · rcases List.mem_cons.1 hx with rfl | hx
      · exact ⟨by simp; omega, by simp [leadDim], he⟩
      · obtain ⟨h1, h2, h3⟩ := hall x hx
        exact ⟨h1, by simpa [leadDim] using h2, h3⟩

/-- Bases that pass the checks are returned as they are. -/
theorem checkBases_asSpecs {bases : List (Store × Nat)} (hm : ∀ x ∈ bases, 0 < x.2)
    (hd : ∀ x ∈ bases, x.1.layout.dim = leadDim bases)
    (he : p = .interleaved → ∀ x ∈ bases, x.1.entityOrdered = true) :
    checkBases p (asSpecs bases) = .ok bases := by
  unfold checkBases
  dsimp only
  refine mapM_eq_ok.2 (List.forall₂_iff_get.2 ⟨by simp [asSpecs], fun i h₁ h₂ => ?_⟩)
  have hx : bases[i] ∈ bases := List.getElem_mem _
  refine checkBase_eq_ok.2 ⟨bases[i].1, by simp [asSpecs], by simp [asSpecs]; exact hm _ hx,
    fun _ => ?_, fun hp => he hp _ hx, by simp [asSpecs]⟩
  -- the first base's dimension, read off the specs
  cases bases with
  | nil => simp at h₂
  | cons b bs => simpa [asSpecs, leadDim] using hd _ hx

end Bases

/-- The mask of a composite dof: its block dof's mask moved to the block's components. -/
def blockMask (blocks : List Block) (components : Int) (bd : BlockDof) : Outcome Mask := do
  let blk := blockAt blocks bd
  let m ← blk.store.nonzeroComponents bd.index
  return shiftMask blk components.toNat m

/-- The place in its base of a composite dof. -/
def blockPlace (blocks : List Block) (bd : BlockDof) : BaseIndex :=
  ⟨(blockAt blocks bd).base, (blockAt blocks bd).copy, bd.index⟩

/-- The cell dof of face dof `bd` on face `f` in a blocked composite: the block's own, moved past
the earlier blocks' dofs. -/
def blockFaceCell (blocks : List Block) (bd : BlockDof) (f : Nat) : Outcome Nat := do
  let k ← (blockAt blocks bd).store.faceToCellIndex bd.index f
  return (blockAt blocks bd).cellOffset + k

/-- **The composite's index tables.** Components are moved by the block's component offset, places
are the block's base and copy with the block dof; only a blocked composite has a face map, made of
its blocks' face maps. -/
theorem systemTables_eq_ok {c : Hypercube} {p : Packing} {blocks : List Block}
    {cell face : List BlockDof} {fd : DofLayout} {t : IndexTables} {fm : Option (List (List Nat))}
    (h : systemTables c p blocks cell face fd = .ok (t, fm)) :
    t.systemToComponent = cell.map (fun bd =>
      shiftIndex (blockAt blocks bd) ((blockAt blocks bd).store.systemToComponentIndex bd.index)) ∧
    t.systemToBase = cell.map (blockPlace blocks) ∧
    t.faceSystemToBase = face.map (blockPlace blocks) ∧
    (p = .blocked → ∃ table, fm = some table ∧
      (List.range c.facesPerCell).mapM (fun f => face.mapM (blockFaceCell blocks · f)) = .ok table) ∧
    (p ≠ .blocked → fm = none) := by
  unfold systemTables at h
  cases p with
  | blocked =>
    simp only [bind_eq_ok] at h
    obtain ⟨check, -, table, htable, h⟩ := h
    simp only [pure, Except.pure, Except.ok.injEq, Prod.mk.injEq] at h
    obtain ⟨_, rfl, h⟩ := h
    obtain ⟨rfl, rfl⟩ := h
    exact ⟨rfl, rfl, rfl, fun _ => ⟨table, rfl, htable⟩, fun hp => absurd rfl hp⟩
  | interleaved | unknown _ =>
    simp only [pure, Except.pure, bind, Except.bind, Except.ok.injEq, Prod.mk.injEq] at h
    obtain ⟨rfl, rfl⟩ := h
    exact ⟨rfl, rfl, rfl, fun hp => (nomatch hp), fun _ => rfl⟩

/-- **One successful construction of a composite**, with every intermediate value and the
equation that produced it. -/
structure CompositeRun (packing : Packing) (specs : List (Option Store × Int)) (E : Store) where
  /-- The checked bases with their multiplicities. -/
  bases : List (Store × Nat)
  /-- The layout of the summed counts. -/
  layout : DofLayout
  cell : Hypercube
  /-- The composite as a definition, with its composed transfer matrices and constraints. -/
  definition : Definition
  tables : IndexTables
  faceMap : Option (List (List Nat))
  packing_eq : packing = .interleaved ∨ packing = .blocked
  checkBases_eq : checkBases packing specs = .ok bases
  layout_eq : DofLayout.ofCounts? (leadDim bases) (summedCounts (blocksOf bases) (leadDim bases))
    (summedComponents (blocksOf bases)) (maxDegree bases) = .ok layout
  cell_eq : Hypercube.ofDim? (leadDim bases) = .ok cell
  tables_eq : systemTables cell packing (blocksOf bases) (cellLayout cell packing (blocksOf bases))
    (faceLayout cell packing (blocksOf bases)) layout = .ok (tables, faceMap)
  assemble_eq : Store.assemble definition cell tables faceMap = .ok E
  masks_eq : (cellLayout cell packing (blocksOf bases)).mapM
    (blockMask (blocksOf bases) (summedComponents (blocksOf bases))) = .ok definition.masks
  definition_layout : definition.layout = layout
  definition_check : ∃ c, definition.check = .ok c
  constraints_eq : composeConstraints layout (blocksOf bases) = .ok definition.constraints
  additive_eq : (cellLayout cell packing (blocksOf bases)).mapM
    (fun bd => (blockAt (blocksOf bases) bd).store.restrictionIsAdditive bd.index) =
      .ok definition.additive
  restriction_eq : composeTransfer .restriction cell (cellLayout cell packing (blocksOf bases))
    (blocksOf bases) = .ok definition.restriction
  prolongation_eq : composeTransfer .prolongation cell (cellLayout cell packing (blocksOf bases))
    (blocksOf bases) = .ok definition.prolongation

/-- **Every composite that is built has a run.** -/
theorem Store.composite_eq_ok {packing : Packing} {specs : List (Option Store × Int)} {E : Store}
    (h : Store.composite packing specs = .ok E) : Nonempty (CompositeRun packing specs E) := by
  unfold Store.composite at h
  simp only [ite_report_bind_eq_ok] at h
  obtain ⟨-, hp, h⟩ := h
  rw [bind_eq_ok] at h
  obtain ⟨bases, hb, h⟩ := h
  rw [mapError_eq_ok] at hb
  rw [bind_eq_ok] at h
  obtain ⟨fd, hfd, h⟩ := h
  rw [mapError_eq_ok] at hfd
  rw [bind_eq_ok] at h
  obtain ⟨c, hc, h⟩ := h
  rw [liftCell, mapError_eq_ok] at hc
  rw [bind_eq_ok] at h
  obtain ⟨additive, hadditive, h⟩ := h
  rw [bind_eq_ok] at h
  obtain ⟨masks, hmasks, h⟩ := h
  rw [bind_eq_ok] at h
  obtain ⟨c', hcheck, h⟩ := h
  rw [mapError_eq_ok] at hcheck
  rw [bind_eq_ok] at h
  obtain ⟨R, hR, h⟩ := h
  rw [bind_eq_ok] at h
  obtain ⟨P, hP, h⟩ := h
  rw [bind_eq_ok] at h
  obtain ⟨C, hC, h⟩ := h
  rw [bind_eq_ok] at h
  obtain ⟨⟨tables, faceMap⟩, ht, h⟩ := h
  exact ⟨{ bases, layout := fd, cell := c, definition := _, tables, faceMap
           packing_eq := by
             cases packing with
             | interleaved => exact .inl rfl
             | blocked => exact .inr rfl
             | unknown n => simp at hp
           checkBases_eq := hb, layout_eq := hfd, cell_eq := hc, tables_eq := ht
           assemble_eq := h, masks_eq := hmasks, definition_layout := rfl
           definition_check := ⟨c', hcheck⟩, constraints_eq := hC, additive_eq := hadditive
           restriction_eq := hR, prolongation_eq := hP }⟩

namespace CompositeRun

variable {packing : Packing} {specs : List (Option Store × Int)} {E : Store}
  (r : CompositeRun packing specs E)

theorem layout_store : E.layout = r.layout := by
  obtain ⟨R, P, C, F, -, -, -, -, hE⟩ := Store.assemble_eq_ok r.assemble_eq
  exact (congrArg Store.layout hE).trans r.definition_layout

theorem cell_store : E.cell = r.cell := by
  obtain ⟨R, P, C, F, -, -, -, -, hE⟩ := Store.assemble_eq_ok r.assemble_eq
  exact congrArg Store.cell hE

theorem masks_store : E.masks = r.definition.masks := by
  obtain ⟨R, P, C, F, -, -, -, -, hE⟩ := Store.assemble_eq_ok r.assemble_eq
  exact congrArg Store.masks hE

theorem tables_store : E.tables = r.tables := by
  obtain ⟨R, P, C, F, -, -, -, -, hE⟩ := Store.assemble_eq_ok r.assemble_eq
  exact congrArg Store.tables hE

theorem entityOrdered_store : E.entityOrdered = r.faceMap.isNone := by
  obtain ⟨R, P, C, F, -, -, -, -, hE⟩ := Store.assemble_eq_ok r.assemble_eq
  exact congrArg Store.entityOrdered hE

theorem faceDofs_store :
    tabulateFaceDofs r.layout r.cell (faceDofOf r.layout r.cell r.faceMap) = .ok E.faceDofs := by
  obtain ⟨R, P, C, F, -, -, -, hf, hE⟩ := Store.assemble_eq_ok r.assemble_eq
  rw [congrArg Store.faceDofs hE, ← r.definition_layout]
  exact hf

end CompositeRun

end FiniteElements.Element
