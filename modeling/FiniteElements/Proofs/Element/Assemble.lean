import FiniteElements.Proofs.Element.Components
import FiniteElements.Proofs.Layout.Counts

/-!
# Building the store of an element

A store is assembled from a checked definition, its index tables and its face numbering. This
file takes each construction step apart: when it succeeds, what it checked and what it produced.

* `Definition.check` succeeds exactly when the layout has a reference cell, the element a name, at
  least one dof and one component, one additivity flag and one mask per dof, and every mask is of
  the size of the components and selects at least one (`Definition.check_eq_ok`).
* The default tables of a simple element exist only when every face dof has a cell dof of the same
  kind to check, which bounds the face dofs by the cell dofs (`defaultTables_eq_ok`,
  `dofsPerFace_le_of_defaultTables`).
* The face table lists, face by face, the cell dof of every face dof, each a dof of the cell
  (`tabulateFaceDofs_eq_ok`, `tabulateFaceDofs_eq_ok_map`).
* `Store.assemble` stores what it is given, the face table and the checked transfer matrices and
  constraints (`Store.assemble_eq_ok`).
-/

namespace FiniteElements.Element

set_option autoImplicit false

open FiniteElements.Cell FiniteElements.Dense

theorem firstBadMask_eq_none {components : Int} {masks : List Mask} :
    firstBadMask components masks = none ↔
      ∀ m ∈ masks, (m.size : Int) = components ∧ m.count ≠ 0 := by
  unfold firstBadMask
  simp only [Option.map_eq_none_iff, List.find?_eq_none]
  constructor
  · intro h m hm
    obtain ⟨i, hi, rfl⟩ := List.getElem_of_mem hm
    simpa using h (masks[i], i) (List.mem_zipIdx_iff_getElem?.2 (by simp [hi]))
  · rintro h ⟨m, i⟩ hp
    have hm : m ∈ masks := List.mem_of_getElem? (List.mem_zipIdx_iff_getElem?.1 hp)
    simpa using h m hm

/-- **What a definition's check asks.** -/
theorem Definition.check_eq_ok {d : Definition} {c : Hypercube} :
    d.check = .ok c ↔ Hypercube.ofDim? d.layout.dim = .ok c ∧ d.name ≠ "" ∧
      1 ≤ d.layout.dofsPerCell ∧ 1 ≤ d.layout.components ∧
      (d.additive.length : Int) = d.layout.dofsPerCell ∧
      (d.masks.length : Int) = d.layout.dofsPerCell ∧
      ∀ m ∈ d.masks, (m.size : Int) = d.layout.components ∧ m.count ≠ 0 := by
  rw [← firstBadMask_eq_none]
  unfold Definition.check
  simp only [bind_eq_ok, mapError_eq_ok, ite_throw_bind_eq_ok]
  cases hb : firstBadMask d.layout.components d.masks with
  | none => simp [pure, Except.pure, and_assoc]
  | some p =>
    -- a bad mask is reported, whichever of its two faults it has
    simp only [reduceCtorEq, and_false, iff_false, not_exists, not_and]
    intro x _ _ _ _ _ h
    split at h <;> simp [throw, throwThe, MonadExceptOf.throw, bind, Except.bind] at h

/-- The cell dof checked for a face dof comes no earlier than the face dof. -/
theorem le_faceCheckDof {fd : DofLayout} {c : Hypercube} (hv : 0 ≤ fd.dofsPerVertex)
    (hl : 0 ≤ fd.dofsPerLine) (i : Int) : i ≤ faceCheckDof fd c i := by
  cases c <;>
    simp [faceCheckDof, Hypercube.verticesPerFace, Hypercube.linesPerFace,
      Hypercube.verticesPerCell, Hypercube.linesPerCell, Hypercube.objectsPerFace,
      Hypercube.objectsPerCell] <;>
    split_ifs <;> omega

/-- **The default tables.** They exist only when the face dofs are not negative and every face
dof has its checked cell dof among the masks; they number the components of the masks. -/
theorem defaultTables_eq_ok {d : Definition} {c : Hypercube} {t : IndexTables}
    (h : defaultTables d c = .ok t) :
    0 ≤ d.layout.dofsPerFace ∧
      (∀ i < d.layout.dofsPerFace.toNat,
        0 ≤ faceCheckDof d.layout c i ∧ faceCheckDof d.layout c i < d.masks.length) ∧
      t.systemToComponent = numberComponents d.layout.components.toNat d.masks := by
  unfold defaultTables at h
  dsimp only at h
  by_cases hneg : d.layout.dofsPerFace < 0
  · simp [hneg, liftFault, Except.mapError, bind, Except.bind] at h
  rw [if_neg hneg, bind_eq_ok] at h
  obtain ⟨checkDofs, hcheck, h⟩ := h
  cases h
  refine ⟨by omega, fun i hi => ?_, rfl⟩
  have hdof := getElem_of_mapM_eq_ok hcheck (i := i) (by simpa using hi)
    (by simpa [length_eq_of_mapM_eq_ok hcheck] using hi)
  simp only [List.getElem_range, bind_eq_ok] at hdof
  obtain ⟨x, hx, -⟩ := hdof
  unfold liftFault checkedIndex at hx
  split at hx
  · rename_i hin
    exact ⟨hin.1, by omega⟩
  · cases hx

/-- A simple element has no more face dofs than cell dofs. -/
theorem dofsPerFace_le_of_defaultTables {d : Definition} {c : Hypercube} {t : IndexTables}
    (h : defaultTables d c = .ok t) (hv : 0 ≤ d.layout.dofsPerVertex)
    (hl : 0 ≤ d.layout.dofsPerLine) : d.layout.dofsPerFace ≤ d.masks.length := by
  obtain ⟨hnn, hcheck, -⟩ := defaultTables_eq_ok h
  by_contra hlt
  -- the last face dof checks a cell dof at or after it, beyond the masks
  have hlast := (hcheck (d.layout.dofsPerFace.toNat - 1) (by omega)).2
  have hge := le_faceCheckDof (c := c) hv hl ((d.layout.dofsPerFace.toNat - 1 : Nat) : Int)
  omega

section FaceTable

variable {fd : DofLayout} {c : Hypercube} {F : Int → Int → Outcome Int} {rows : List (List Nat)}

/-- **The face table.** Face by face, the cell dof of every face dof, each a dof of the cell. -/
theorem tabulateFaceDofs_eq_ok (h : tabulateFaceDofs fd c F = .ok rows) :
    rows.length = c.facesPerCell ∧
      ∀ f < c.facesPerCell, (rows.getD f []).length = fd.dofsPerFace.toNat ∧
        ∀ j < fd.dofsPerFace.toNat, ∃ k, F j f = .ok k ∧ 0 ≤ k ∧ k < fd.dofsPerCell ∧
          (rows.getD f []).getD j 0 = k.toNat := by
  have hlen := length_eq_of_mapM_eq_ok h
  simp only [List.length_range] at hlen
  refine ⟨hlen, fun f hf => ?_⟩
  have hrow := getElem_of_mapM_eq_ok h (i := f) (by simpa using hf) (by omega)
  simp only [List.getElem_range] at hrow
  have hrlen := length_eq_of_mapM_eq_ok hrow
  simp only [List.length_range] at hrlen
  refine ⟨by simp [List.getD_eq_getElem?_getD, List.getElem?_eq_getElem (by omega : f < rows.length), hrlen],
    fun j hj => ?_⟩
  have hent := getElem_of_mapM_eq_ok hrow (i := j) (by simpa using hj) (by omega)
  simp only [List.getElem_range, bind_eq_ok] at hent
  obtain ⟨k, hk, hent⟩ := hent
  refine ⟨k, hk, ?_⟩
  by_cases hin : 0 ≤ k ∧ k < fd.dofsPerCell
  · rw [if_pos hin] at hent
    refine ⟨hin.1, hin.2, ?_⟩
    simp only [pure, Except.pure, Except.ok.injEq] at hent
    simp [List.getD_eq_getElem?_getD, List.getElem?_eq_getElem (by omega : f < rows.length),
      List.getElem?_eq_getElem (by omega : j < rows[f].length), hent]
  · simp [hin, liftFault, Except.mapError] at hent

/-- A face map whose every value is a dof of the cell tabulates to its values. -/
theorem tabulateFaceDofs_eq_ok_map {g : Int → Int → Int}
    (hg : ∀ f < c.facesPerCell, ∀ j < fd.dofsPerFace.toNat,
      F j f = .ok (g j f) ∧ 0 ≤ g j f ∧ g j f < fd.dofsPerCell) :
    tabulateFaceDofs fd c F = .ok ((List.range c.facesPerCell).map fun (f : Nat) =>
      (List.range fd.dofsPerFace.toNat).map fun (j : Nat) => (g j f).toNat) := by
  refine mapM_eq_ok_map fun f hf => mapM_eq_ok_map fun j hj => ?_
  obtain ⟨hF, h0, hlt⟩ := hg f (List.mem_range.1 hf) j (List.mem_range.1 hj)
  simp [hF, bind, Except.bind, h0, hlt, pure, Except.pure]

end FaceTable

namespace Store

/-- **Assembling a store.** It keeps the definition's data and the tables, and stores the checked
transfer matrices and constraints and the face table. -/
theorem assemble_eq_ok {d : Definition} {c : Hypercube} {tables : IndexTables}
    {faceMap : Option (List (List Nat))} {s : Store} (h : assemble d c tables faceMap = .ok s) :
    ∃ restriction prolongation constraints faceDofs,
      storeTransfer .restriction d.restriction d.layout c = .ok restriction ∧
      storeTransfer .prolongation d.prolongation d.layout c = .ok prolongation ∧
      storeConstraints d.constraints d.layout = .ok constraints ∧
      tabulateFaceDofs d.layout c (faceDofOf d.layout c faceMap) = .ok faceDofs ∧
      s = { name := d.name, layout := d.layout, cell := c, additive := d.additive,
            masks := d.masks, restriction, prolongation,
            constraints := if constraints.isEmpty then constraints
              else constraints.setReadOnly (some (d.name ++ " interface constraints")),
            tables, entityOrdered := faceMap.isNone, faceDofs } := by
  unfold assemble at h
  simp only [bind_eq_ok, mapError_eq_ok] at h
  obtain ⟨restriction, hr, prolongation, hp, h⟩ := h
  obtain ⟨constraints, hc, h⟩ := h
  have hc' : storeConstraints d.constraints d.layout = .ok constraints := by
    cases hs : storeConstraints d.constraints d.layout <;> simp_all
  obtain ⟨faceDofs, hf, h⟩ := h
  cases h
  exact ⟨restriction, prolongation, constraints, faceDofs, hr, hp, hc', hf, rfl⟩

/-- The store of a simple element is assembled from its checked definition and default tables. -/
theorem ofDefinition_eq_ok {d : Definition} {s : Store} (h : ofDefinition d = .ok s) :
    ∃ c tables, d.check = .ok c ∧ defaultTables d c = .ok tables ∧
      assemble d c tables none = .ok s := by
  unfold ofDefinition at h
  simp only [bind_eq_ok, mapError_eq_ok] at h
  obtain ⟨c, hc, tables, ht, h⟩ := h
  exact ⟨c, tables, hc, ht, h⟩

end Store

end FiniteElements.Element
