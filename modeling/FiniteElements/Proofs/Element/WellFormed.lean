import FiniteElements.Proofs.Element.Assemble

/-!
# Well-formed stores

Every element that is built, simple or composite, keeps the same facts about itself, which is what
lets composites be built from composites. `Store.WellFormed` collects them:

* its layout satisfies the layout equations on its reference cell, as machine words
  (`DofLayout.Wf`), with no more face dofs than cell dofs;
* it has one mask per dof, each of the size of the components and selecting at least one;
* its component table is the component numbering of its masks;
* its face table has one row per face and one cell dof of the cell per face dof, given by the
  reference cell's face numbering when its dofs are numbered object kind by object kind.

Everything but the face bound and the component table follows from the store having been
assembled from a checked definition (`Store.wellFormed_of_assemble`); a simple element gets those
two from its default tables (`Store.wellFormed_of_ofDefinition`).

## Main definitions

* `FiniteElements.Element.Store.WellFormed`

## Main results

* `Store.wellFormed_of_assemble`, `Store.wellFormed_of_ofDefinition`
-/

namespace FiniteElements.Element

set_option autoImplicit false

open FiniteElements.Cell

namespace Store

/-- The facts every built store keeps about itself. -/
structure WellFormed (s : Store) : Prop where
  layout_wf : s.layout.Wf s.cell
  face_nonneg : 0 ≤ s.layout.dofsPerFace
  face_le_cell : s.layout.dofsPerFace ≤ s.dofsPerCell
  masks_length : (s.masks.length : Int) = s.dofsPerCell
  mask_size : ∀ m ∈ s.masks, (m.size : Int) = s.components
  mask_count : ∀ m ∈ s.masks, m.count ≠ 0
  components_table : s.tables.systemToComponent = numberComponents s.components.toNat s.masks
  faceDofs_length : s.faceDofs.length = s.cell.facesPerCell
  faceDofs_row : ∀ f < s.cell.facesPerCell,
    (s.faceDofs.getD f []).length = s.layout.dofsPerFace.toNat
  faceDofs_lt : ∀ f < s.cell.facesPerCell, ∀ j < s.layout.dofsPerFace.toNat,
    ((s.faceDofs.getD f []).getD j 0 : Int) < s.dofsPerCell
  geometric : s.entityOrdered = true → ∀ f < s.cell.facesPerCell,
    ∀ j < s.layout.dofsPerFace.toNat,
      geometricFaceDof s.layout s.cell j f = .ok ((s.faceDofs.getD f []).getD j 0)

/-- **An assembled store is well formed** once its definition is checked, its layout satisfies the
layout equations with no more face dofs than cell dofs, and its component table numbers its masks. -/
theorem wellFormed_of_assemble {d : Definition} {c : Hypercube} {tables : IndexTables}
    {faceMap : Option (List (List Nat))} {s : Store} (h : assemble d c tables faceMap = .ok s)
    (hcheck : ∃ c', d.check = .ok c') (hwf : d.layout.Wf c) (hface : 0 ≤ d.layout.dofsPerFace)
    (hle : d.layout.dofsPerFace ≤ d.layout.dofsPerCell)
    (htable : tables.systemToComponent = numberComponents d.layout.components.toNat d.masks) :
    s.WellFormed := by
  obtain ⟨-, -, -, faceDofs, -, -, -, hfaces, rfl⟩ := assemble_eq_ok h
  obtain ⟨c', hc'⟩ := hcheck
  obtain ⟨-, -, -, -, -, hmasks, hmask⟩ := Definition.check_eq_ok.1 hc'
  obtain ⟨hlen, hrows⟩ := tabulateFaceDofs_eq_ok hfaces
  refine { layout_wf := hwf, face_nonneg := hface, face_le_cell := hle, masks_length := hmasks
           mask_size := fun m hm => (hmask m hm).1, mask_count := fun m hm => (hmask m hm).2
           components_table := htable, faceDofs_length := hlen
           faceDofs_row := fun f hf => (hrows f hf).1
           faceDofs_lt := fun f hf j hj => ?_, geometric := fun ho f hf j hj => ?_ }
  · obtain ⟨k, -, hk0, hk, hentry⟩ := (hrows f hf).2 j hj
    simp only [dofsPerCell]
    rw [hentry, Int.toNat_of_nonneg hk0]
    exact hk
  · -- without a face map the face table is the reference cell's numbering
    have hnone : faceMap = none := by simpa using ho
    subst hnone
    obtain ⟨k, hk, hk0, -, hentry⟩ := (hrows f hf).2 j hj
    simp only [faceDofOf] at hk
    simp only [hentry, Int.toNat_of_nonneg hk0, hk]

/-- **A simple element of a layout from counts is well formed.** -/
theorem wellFormed_of_ofDefinition {d : Definition} {dim degree : Int} {counts : List Int}
    {components : Int} (hfd : DofLayout.ofCounts? dim counts components degree = .ok d.layout)
    {s : Store} (h : ofDefinition d = .ok s) : s.WellFormed := by
  obtain ⟨c, tables, hcheck, htables, hs⟩ := ofDefinition_eq_ok h
  obtain ⟨c', hwf, -⟩ := DofLayout.wf_of_ofCounts? hfd
  have hc : c' = c := by
    have := hwf.cell.symm.trans (Definition.check_eq_ok.1 hcheck).1
    simpa using this
  subst hc
  obtain ⟨hface, -, htable⟩ := defaultTables_eq_ok htables
  have hle := dofsPerFace_le_of_defaultTables htables (hwf.count_nonneg 0) (hwf.count_nonneg 1)
  have hmasks := (Definition.check_eq_ok.1 hcheck).2.2.2.2.2.1
  exact wellFormed_of_assemble hs ⟨_, hcheck⟩ hwf hface (by omega) htable

/-- The component index of a shape function: reported when it is not primitive, else read from
the component table. -/
theorem systemToComponentIndex_of_lt {s : Store} {k : Nat} (hk : (k : Int) < s.dofsPerCell) :
    s.systemToComponentIndex k =
      if (s.masks.getD k default).count = 1 then .ok (s.tables.systemToComponent.getD k .invalid)
      else report (.notPrimitive s.name k (s.masks.getD k default)) := by
  unfold systemToComponentIndex
  have hin : 0 ≤ (k : Int) ∧ (k : Int) < s.dofsPerCell := ⟨Int.natCast_nonneg k, hk⟩
  simp [hin, pure, Except.pure, bind, Except.bind, report]

namespace WellFormed

variable {s : Store} (hs : s.WellFormed)
include hs

/-- The component table of a well-formed store lists the component index of every shape
function. -/
theorem systemToComponent_eq :
    s.tables.systemToComponent = (List.range s.masks.length).map (componentEntry s.masks) := by
  have hsize : ∀ m ∈ s.masks, m.size ≤ s.components.toNat := fun m hm => by
    have := hs.mask_size m hm
    omega
  rw [hs.components_table, numberComponents_eq hsize]

theorem systemToComponent_getD {k : Nat} (hk : k < s.masks.length) :
    s.tables.systemToComponent.getD k .invalid = componentEntry s.masks k := by
  rw [hs.systemToComponent_eq, List.getD_eq_getElem?_getD, List.getElem?_map,
    List.getElem?_range hk]
  rfl

theorem systemToComponentIndex_eq {k : Nat} (hk : (k : Int) < s.dofsPerCell) :
    s.systemToComponentIndex k =
      if (s.masks.getD k default).count = 1 then .ok (componentEntry s.masks k)
      else report (.notPrimitive s.name k (s.masks.getD k default)) := by
  rw [systemToComponentIndex_of_lt hk, hs.systemToComponent_getD (by have := hs.masks_length; omega)]

end WellFormed

end Store

end FiniteElements.Element
