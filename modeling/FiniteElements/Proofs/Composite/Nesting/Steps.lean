import FiniteElements.Proofs.Composite.Run

/-!
# Composites that take the same steps

Building a composite goes through fixed steps (`CompositeRun`): check the bases, sum their layout
data, read each composite dof's additivity and mask off its block, check the definition, compose
the transfer matrices and the constraints, tabulate the index tables and assemble the store. A
composite is built exactly when these steps succeed (`Store.composite_eq_assemble`).

Two composites that give the same result at every step, each reading through its own blocks
(`SameSteps`), are built together and are one element: their stores differ at most in the name,
in the name of the constraint matrix, and in the tables that place dofs and components in bases
(`Store.SameElement`). Such stores answer every other question alike, and the questions that can
fail with an error naming the element fail together.

## Main definitions

* `FiniteElements.Element.Store.SameElement`, `FiniteElements.Element.SameSteps`

## Main results

* `Store.composite_eq_assemble`: a composite whose steps succeed is the store they assemble.
* `CompositeRun.transport`: a composite that takes the same steps as a built one is built, and is
  the same element.
-/

namespace FiniteElements.Dense.Matrix

/-- A matrix without its name: its shape, its entries and whether it is read-only. -/
def unnamed (m : Matrix) : Matrix := { m with name := "" }

@[simp] theorem isEmpty_unnamed (m : Matrix) : m.unnamed.isEmpty = m.isEmpty := rfl

/-- Handing out a read-only copy does not look at the name. -/
theorem unnamed_readOnlyCopy (m : Matrix) : m.readOnlyCopy.unnamed = m.unnamed.readOnlyCopy := by
  have hu : m.unnamed.isEmpty = m.isEmpty := rfl
  cases h : m.isEmpty
  · rw [readOnlyCopy, readOnlyCopy, if_neg (by simp [h]), if_neg (by simp [hu, h]), copy, copy,
      if_neg (by simp [h]), if_neg (by simp [hu, h])]
    rfl
  · rw [readOnlyCopy, readOnlyCopy, if_pos h, if_pos (hu.trans h)]

end FiniteElements.Dense.Matrix

namespace FiniteElements.Element

set_option autoImplicit false

open FiniteElements.Cell FiniteElements.Dense FiniteElements.Constraint

theorem map_eq_ok {ε α β : Type} {f : α → β} {x : Except ε α} {b : β} :
    x.map f = .ok b ↔ ∃ a, x = .ok a ∧ f a = b := by
  cases x <;> simp [Except.map]

/-- The name a composite of these bases gets: `FESystem<dim>[…]`, its bases' names joined by `-`,
each with its multiplicity when above one. -/
def compositeName (bases : List (Store × Nat)) : String :=
  s!"FESystem<{leadDim bases}>[" ++ String.intercalate "-" (bases.map fun p => baseLabel p.1 p.2) ++
    "]"

theorem Store.composite_eq_assemble {p : Packing} {specs : List (Option Store × Int)}
    {bases : List (Store × Nat)} {fd : DofLayout} {c : Hypercube} {additive : List Bool}
    {masks : List Mask} {R P : List Matrix} {C : Matrix} {t : IndexTables}
    {fm : Option (List (List Nat))}
    (hne : specs ≠ []) (hp : p = .interleaved ∨ p = .blocked)
    (hb : checkBases p specs = .ok bases)
    (hfd : DofLayout.ofCounts? (leadDim bases) (summedCounts (blocksOf bases) (leadDim bases))
      (summedComponents (blocksOf bases)) (maxDegree bases) = .ok fd)
    (hc : Hypercube.ofDim? (leadDim bases) = .ok c)
    (hadd : (cellLayout c p (blocksOf bases)).mapM
      (fun bd => (blockAt (blocksOf bases) bd).store.restrictionIsAdditive bd.index) = .ok additive)
    (hmasks : (cellLayout c p (blocksOf bases)).mapM
      (blockMask (blocksOf bases) (summedComponents (blocksOf bases))) = .ok masks)
    {c' : Hypercube}
    (hcheck : ({ name := compositeName bases, layout := fd, additive := additive,
                 masks := masks } : Definition).check = .ok c')
    (hR : composeTransfer .restriction c (cellLayout c p (blocksOf bases)) (blocksOf bases) = .ok R)
    (hP : composeTransfer .prolongation c (cellLayout c p (blocksOf bases)) (blocksOf bases) =
      .ok P)
    (hC : composeConstraints fd (blocksOf bases) = .ok C)
    (ht : systemTables c p (blocksOf bases) (cellLayout c p (blocksOf bases))
      (faceLayout c p (blocksOf bases)) fd = .ok (t, fm)) {E : Store}
    (hE : Store.assemble
        { name := compositeName bases, layout := fd, additive := additive, masks := masks
          restriction := R, prolongation := P, constraints := C } c t fm = .ok E) :
    Store.composite p specs = .ok E := by
  have hp' : (!(p == Packing.interleaved || p == Packing.blocked)) = false := by
    rcases hp with rfl | rfl <;> rfl
  have hne' : specs.isEmpty = false := by simpa using hne
  unfold Store.composite
  simp only [hne', hp', Bool.false_eq_true, if_false]
  refine bind_eq_ok.2 ⟨bases, mapError_eq_ok.2 hb, ?_⟩
  refine bind_eq_ok.2 ⟨fd, mapError_eq_ok.2 hfd, ?_⟩
  refine bind_eq_ok.2 ⟨c, mapError_eq_ok.2 hc, ?_⟩
  refine bind_eq_ok.2 ⟨additive, hadd, ?_⟩
  refine bind_eq_ok.2 ⟨masks, hmasks, ?_⟩
  refine bind_eq_ok.2 ⟨c', mapError_eq_ok.2 hcheck, ?_⟩
  refine bind_eq_ok.2 ⟨R, hR, ?_⟩
  refine bind_eq_ok.2 ⟨P, hP, ?_⟩
  refine bind_eq_ok.2 ⟨C, hC, ?_⟩
  refine bind_eq_ok.2 ⟨(t, fm), ht, ?_⟩
  exact hE

namespace Store

/-- **Two stores of one element.** They agree on everything but the element's name, the name of its
constraint matrix, and the tables that place dofs and components in bases or read face dofs'
components from them. -/
structure SameElement (s t : Store) : Prop where
  layout_eq : s.layout = t.layout
  cell_eq : s.cell = t.cell
  additive_eq : s.additive = t.additive
  masks_eq : s.masks = t.masks
  restriction_eq : s.restriction = t.restriction
  prolongation_eq : s.prolongation = t.prolongation
  constraints_eq : s.constraints.unnamed = t.constraints.unnamed
  systemToComponent_eq : s.tables.systemToComponent = t.tables.systemToComponent
  entityOrdered_eq : s.entityOrdered = t.entityOrdered
  faceDofs_eq : s.faceDofs = t.faceDofs

namespace SameElement

variable {s t : Store} (h : s.SameElement t)
include h

theorem symm : t.SameElement s :=
  ⟨h.1.symm, h.2.symm, h.3.symm, h.4.symm, h.5.symm, h.6.symm, h.7.symm, h.8.symm, h.9.symm,
    h.10.symm⟩

theorem nonzeroComponents_eq (i : Int) : s.nonzeroComponents i = t.nonzeroComponents i := by
  simp only [nonzeroComponents, dofsPerCell, h.layout_eq, h.masks_eq]

theorem restrictionIsAdditive_eq (i : Int) :
    s.restrictionIsAdditive i = t.restrictionIsAdditive i := by
  simp only [restrictionIsAdditive, dofsPerCell, h.layout_eq, h.additive_eq]

theorem faceToCellIndex_eq (j f : Int) : s.faceToCellIndex j f = t.faceToCellIndex j f := by
  simp only [faceToCellIndex, h.layout_eq, h.cell_eq, h.faceDofs_eq]

theorem hasSupportOnFace_eq (i f : Int) : s.hasSupportOnFace i f = t.hasSupportOnFace i f := by
  simp only [hasSupportOnFace, dofsPerCell, h.layout_eq, h.cell_eq, h.faceDofs_eq]

theorem transferIsImplemented_eq (kind : Transfer) :
    s.transferIsImplemented kind = t.transferIsImplemented kind := by
  cases kind <;>
    simp only [transferIsImplemented, restrictionIsImplemented, prolongationIsImplemented,
      h.restriction_eq, h.prolongation_eq]

/-- Both constraint matrices have storage, or neither: storage does not depend on the name. -/
theorem constraints_isEmpty_eq : s.constraints.isEmpty = t.constraints.isEmpty := by
  rw [← Matrix.isEmpty_unnamed, h.constraints_eq, Matrix.isEmpty_unnamed]

theorem constraintsAreImplemented_eq :
    s.constraintsAreImplemented = t.constraintsAreImplemented := by
  simp only [constraintsAreImplemented, h.layout_eq, h.constraints_isEmpty_eq]

/-- The component index of a shape function, when there is one, is the same; a failure names each
element by its own name. -/
theorem systemToComponentIndex_eq (i : Int) :
    (s.systemToComponentIndex i).toOption = (t.systemToComponentIndex i).toOption := by
  simp only [systemToComponentIndex, dofsPerCell, h.layout_eq, h.masks_eq, h.systemToComponent_eq]
  split <;> [rfl; split <;> rfl]

theorem componentToSystemIndex_eq (c idx : Int) :
    (s.componentToSystemIndex c idx).toOption = (t.componentToSystemIndex c idx).toOption := by
  have hc : s.components = t.components := by simp only [components, h.layout_eq]
  unfold componentToSystemIndex
  rw [hc, h.systemToComponent_eq]
  split
  · dsimp only
    generalize List.findIdx? _ _ = found
    cases found <;> rfl
  · rfl

theorem transferMatrix_eq (kind : Transfer) (child : Int) :
    (s.transferMatrix kind child).toOption = (t.transferMatrix kind child).toOption := by
  cases kind <;>
    simp only [transferMatrix, restrictionMatrix, prolongationMatrix, h.cell_eq,
      h.restriction_eq, h.prolongation_eq] <;> split <;> [rfl; split <;> rfl; rfl; split <;> rfl]

/-- The interface constraints handed out are the same matrix but for its name, or missing from
both. -/
theorem interfaceConstraints_eq :
    s.interfaceConstraints.toOption.map Matrix.unnamed =
      t.interfaceConstraints.toOption.map Matrix.unnamed := by
  simp only [interfaceConstraints, h.layout_eq, h.constraints_isEmpty_eq]
  split
  · rfl
  · simp [pure, Except.pure, Except.toOption, Matrix.unnamed_readOnlyCopy, h.constraints_eq]

end SameElement

/-- **Assembling under another name and other base tables** builds the same element, as long as
the definition's data and the component table are the same. -/
theorem assemble_sameElement {d : Definition} {c : Hypercube} {t : IndexTables}
    {fm : Option (List (List Nat))} {s : Store} (h : assemble d c t fm = .ok s)
    (d' : Definition) (t' : IndexTables) (hlayout : d'.layout = d.layout)
    (hadditive : d'.additive = d.additive)
    (hmasks : d'.masks = d.masks) (hR : d'.restriction = d.restriction)
    (hP : d'.prolongation = d.prolongation) (hC : d'.constraints = d.constraints)
    (htable : t'.systemToComponent = t.systemToComponent) :
    ∃ s', assemble d' c t' fm = .ok s' ∧ s.SameElement s' := by
  obtain ⟨R, P, C, F, hR', hP', hC', hF, rfl⟩ := assemble_eq_ok h
  refine ⟨
    { name := d'.name, layout := d'.layout, cell := c, additive := d'.additive, masks := d'.masks
      restriction := R, prolongation := P
      constraints := if C.isEmpty then C
        else C.setReadOnly (some (d'.name ++ " interface constraints"))
      tables := t', entityOrdered := fm.isNone, faceDofs := F }, ?_, ?_⟩
  · unfold assemble
    refine bind_eq_ok.2 ⟨R, mapError_eq_ok.2 (by rw [hlayout, hR]; exact hR'), ?_⟩
    refine bind_eq_ok.2 ⟨P, mapError_eq_ok.2 (by rw [hlayout, hP]; exact hP'), ?_⟩
    refine bind_eq_ok.2 ⟨C, by rw [hlayout, hC, hC']; rfl, ?_⟩
    refine bind_eq_ok.2 ⟨F, by rw [hlayout]; exact hF, ?_⟩
    rfl
  · refine ⟨hlayout.symm, rfl, hadditive.symm, hmasks.symm, rfl, rfl, ?_, htable.symm, rfl, rfl⟩
    -- the stored constraints differ only in the name they are made read-only under
    split <;> rfl

end Store

/-- Composite names start with the family's own: none is empty. -/
theorem compositeName_ne_empty (bases : List (Store × Nat)) : compositeName bases ≠ "" := by
  intro h
  have := congrArg String.length h
  simp [compositeName] at this

/-- **Two compositions that take the same steps.** Under one packing, the specs pass the checks
alike, the bases sum to the same layout data, and on the composite's reference cell and layout,
reading the dofs through each composite's own blocks gives the same additivity flags, masks,
transfer matrices, constraints, component table and face map. -/
structure SameSteps (p : Packing) (sA sB : List (Option Store × Int))
    (bA bB : List (Store × Nat)) : Prop where
  checkBases_iff : checkBases p sA = .ok bA ↔ checkBases p sB = .ok bB
  leadDim_eq : leadDim bA = leadDim bB
  summedCounts_eq : summedCounts (blocksOf bA) (leadDim bA) =
    summedCounts (blocksOf bB) (leadDim bB)
  summedComponents_eq : summedComponents (blocksOf bA) = summedComponents (blocksOf bB)
  maxDegree_eq : maxDegree bA = maxDegree bB
  additive_eq : ∀ c, Hypercube.ofDim? (leadDim bA) = .ok c →
    (cellLayout c p (blocksOf bA)).mapM
        (fun bd => (blockAt (blocksOf bA) bd).store.restrictionIsAdditive bd.index) =
      (cellLayout c p (blocksOf bB)).mapM
        (fun bd => (blockAt (blocksOf bB) bd).store.restrictionIsAdditive bd.index)
  masks_eq : ∀ c, Hypercube.ofDim? (leadDim bA) = .ok c →
    (cellLayout c p (blocksOf bA)).mapM (blockMask (blocksOf bA) (summedComponents (blocksOf bA))) =
      (cellLayout c p (blocksOf bB)).mapM (blockMask (blocksOf bB) (summedComponents (blocksOf bB)))
  transfer_eq : ∀ c, Hypercube.ofDim? (leadDim bA) = .ok c → ∀ kind,
    composeTransfer kind c (cellLayout c p (blocksOf bA)) (blocksOf bA) =
      composeTransfer kind c (cellLayout c p (blocksOf bB)) (blocksOf bB)
  rows_length_eq : (decodeGroups (rowGroups (leadDim bA)) (blocksOf bA)).length =
    (decodeGroups (rowGroups (leadDim bB)) (blocksOf bB)).length
  columns_length_eq : (decodeGroups (columnGroups (leadDim bA)) (blocksOf bA)).length =
    (decodeGroups (columnGroups (leadDim bB)) (blocksOf bB)).length
  constraints_eq : ∀ fd, DofLayout.ofCounts? (leadDim bA) (summedCounts (blocksOf bA) (leadDim bA))
      (summedComponents (blocksOf bA)) (maxDegree bA) = .ok fd →
    (decodeGroups (rowGroups (leadDim bA)) (blocksOf bA)).length = fd.constraintsSize.1.toNat →
    (decodeGroups (columnGroups (leadDim bA)) (blocksOf bA)).length = fd.constraintsSize.2.toNat →
    composeConstraints fd (blocksOf bA) = composeConstraints fd (blocksOf bB)
  tables_eq : ∀ c fd, Hypercube.ofDim? (leadDim bA) = .ok c →
    DofLayout.ofCounts? (leadDim bA) (summedCounts (blocksOf bA) (leadDim bA))
      (summedComponents (blocksOf bA)) (maxDegree bA) = .ok fd →
    (systemTables c p (blocksOf bA) (cellLayout c p (blocksOf bA)) (faceLayout c p (blocksOf bA))
        fd).map (fun x => (x.1.systemToComponent, x.2)) =
      (systemTables c p (blocksOf bB) (cellLayout c p (blocksOf bB)) (faceLayout c p (blocksOf bB))
        fd).map (fun x => (x.1.systemToComponent, x.2))

namespace SameSteps

variable {p : Packing} {sA sB : List (Option Store × Int)} {bA bB : List (Store × Nat)}

theorem symm (h : SameSteps p sA sB bA bB) : SameSteps p sB sA bB bA where
  checkBases_iff := h.checkBases_iff.symm
  leadDim_eq := h.leadDim_eq.symm
  summedCounts_eq := h.summedCounts_eq.symm
  summedComponents_eq := h.summedComponents_eq.symm
  maxDegree_eq := h.maxDegree_eq.symm
  additive_eq c hc := (h.additive_eq c (h.leadDim_eq ▸ hc)).symm
  masks_eq c hc := (h.masks_eq c (h.leadDim_eq ▸ hc)).symm
  transfer_eq c hc kind := (h.transfer_eq c (h.leadDim_eq ▸ hc) kind).symm
  rows_length_eq := h.rows_length_eq.symm
  columns_length_eq := h.columns_length_eq.symm
  constraints_eq fd hfd hrows hcols := (h.constraints_eq fd (by
    rw [h.summedCounts_eq, h.summedComponents_eq, h.maxDegree_eq, h.leadDim_eq]; exact hfd)
    (h.rows_length_eq.trans hrows) (h.columns_length_eq.trans hcols)).symm
  tables_eq c fd hc hfd := (h.tables_eq c fd (h.leadDim_eq ▸ hc) (by
    rw [h.summedCounts_eq, h.summedComponents_eq, h.maxDegree_eq, h.leadDim_eq]; exact hfd)).symm

end SameSteps

/-- **A composite that takes the same steps as a built one is built, and is the same element**,
when the built one's constraint layout has its constraint size. -/
theorem CompositeRun.transport {p : Packing} {sA sB : List (Option Store × Int)} {EA : Store}
    (r : CompositeRun p sA EA) {bB : List (Store × Nat)} (h : SameSteps p sA sB r.bases bB)
    (hrows : (decodeGroups (rowGroups (leadDim r.bases)) (blocksOf r.bases)).length =
      r.layout.constraintsSize.1.toNat)
    (hcols : (decodeGroups (columnGroups (leadDim r.bases)) (blocksOf r.bases)).length =
      r.layout.constraintsSize.2.toNat) :
    ∃ EB, Store.composite p sB = .ok EB ∧ EA.SameElement EB := by
  have hcheck := h.checkBases_iff.1 r.checkBases_eq
  have hc : Hypercube.ofDim? (leadDim bB) = .ok r.cell := h.leadDim_eq ▸ r.cell_eq
  have hfd : DofLayout.ofCounts? (leadDim bB) (summedCounts (blocksOf bB) (leadDim bB))
      (summedComponents (blocksOf bB)) (maxDegree bB) = .ok r.layout := by
    rw [← h.summedCounts_eq, ← h.summedComponents_eq, ← h.maxDegree_eq, ← h.leadDim_eq]
    exact r.layout_eq
  -- no bases have no dimension, so no reference cell
  have hne : sB ≠ [] := by
    rintro rfl
    have hnil : bB = [] := by
      have := (checkBases_eq_ok hcheck).1
      cases bB with
      | nil => rfl
      | cons x bs => simp [asSpecs] at this
    subst hnil
    simp [leadDim, Hypercube.ofDim?] at hc
  obtain ⟨c', hc'⟩ := r.definition_check
  have hcheckB : Definition.check
      { name := compositeName bB, layout := r.layout, additive := r.definition.additive
        masks := r.definition.masks } = .ok c' := by
    obtain ⟨h1, -, h3, h4, h5, h6, h7⟩ := Definition.check_eq_ok.1 hc'
    rw [r.definition_layout] at h1 h3 h4 h5 h6 h7
    exact Definition.check_eq_ok.2 ⟨h1, compositeName_ne_empty bB, h3, h4, h5, h6, h7⟩
  have htables := h.tables_eq r.cell r.layout r.cell_eq r.layout_eq
  rw [r.tables_eq] at htables
  obtain ⟨⟨tB, fmB⟩, htB, hproj⟩ := map_eq_ok.1 htables.symm
  simp only [Prod.mk.injEq] at hproj
  obtain ⟨htable, rfl⟩ := hproj
  obtain ⟨EB, hEB, hsame⟩ := Store.assemble_sameElement r.assemble_eq
    { name := compositeName bB, layout := r.layout, additive := r.definition.additive
      masks := r.definition.masks, restriction := r.definition.restriction
      prolongation := r.definition.prolongation, constraints := r.definition.constraints }
    tB r.definition_layout.symm rfl rfl rfl rfl rfl htable
  refine ⟨EB, Store.composite_eq_assemble hne r.packing_eq hcheck hfd hc
    (by rw [← h.additive_eq r.cell r.cell_eq]; exact r.additive_eq)
    (by rw [← h.masks_eq r.cell r.cell_eq]; exact r.masks_eq) hcheckB
    (by rw [← h.transfer_eq r.cell r.cell_eq]; exact r.restriction_eq)
    (by rw [← h.transfer_eq r.cell r.cell_eq]; exact r.prolongation_eq)
    (by rw [← h.constraints_eq r.layout r.layout_eq hrows hcols]; exact r.constraints_eq) htB hEB,
    hsame⟩

end FiniteElements.Element
