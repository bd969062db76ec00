import FiniteElements.Proofs.Element.Construction
import FiniteElements.Proofs.Composite.ShapeFunctions

/-!
# Component indices of face dofs

The component index of a face dof is not read off the face it lies on. A simple element checks the
cell dof of the same object kind at the same offset (`faceCheckDof`) and numbers the masks of those
cell dofs; a composite checks, when blocked, the cell dof of the face dof on face `0`, and, when
interleaved, again the cell dof of the same kind at the same offset, while it reads the index
itself from the base.

These agree with the masks on every face when the masks of each simple element go by object kind:
on the cell's vertices and lines, and in 3D its quadrilaterals, the `e`-th dof of every object of a
kind has one mask (`Store.MasksByKind`). A face dof then has one mask on every face, and the cell
dof checked for it lies on a face (`Store.WellFormed.exists_face_faceCheckDof`,
`CompositeRun.exists_face_checkDof`), so its component index follows that mask
(`Store.FaceComponentsFollowMasks`). A composite keeps this from its bases
(`CompositeRun.faceComponentsFollowMasks`), and every element built from such simple elements has
it (`Store.BuiltByKind.face_component_indices`).

Masks that differ between objects of one kind break it, in a simple element and in a composite
(`skewMasks_faceComponents`).

## Main definitions

* `Store.MasksByKind`, `Store.FaceComponentAt`, `Store.FaceComponentsFollowMasks`
* `Store.BuiltByKind`

## Main results

* `faceComponentsFollowMasks_of_ofDefinition`, `CompositeRun.faceComponentsFollowMasks`
* `Store.BuiltByKind.face_component_indices`
-/

namespace FiniteElements.Cell

set_option autoImplicit false

/-- For every kind of face object, some face has the cell's first objects of that kind, in
order. -/
theorem Hypercube.exists_face_firstObjects (c : Hypercube) {κ : Nat} (hκ : κ < c.dim) :
    ∃ f < c.facesPerCell, ∀ o < c.objectsPerFace.getD κ 0, c.faceObject κ f o = .ok o := by
  -- the reference cells are small enough to check whole
  have key : ∀ κ, κ < c.dim → ∃ f, f < c.facesPerCell ∧
      ∀ o, o < c.objectsPerFace.getD κ 0 → (c.faceObject κ f o).toOption = some o := by
    cases c <;> decide
  obtain ⟨f, hf, h⟩ := key κ hκ
  exact ⟨f, hf, fun o ho => toOption_eq_some.1 (h o ho)⟩

theorem Hypercube.facesPerCell_pos (c : Hypercube) : 0 < c.facesPerCell := by
  cases c <;> decide

end FiniteElements.Cell

namespace FiniteElements.Element

set_option autoImplicit false

open FiniteElements.Cell

/-- **The face tables of a simple element**: the checked cell dof of every face dof, and the
component numbering of the masks of those cell dofs. -/
theorem defaultTables_faceTables {d : Definition} {c : Hypercube} {t : IndexTables}
    (h : defaultTables d c = .ok t) :
    t.faceCheckDof = (List.range d.layout.dofsPerFace.toNat).map
        (fun (i : Nat) => (faceCheckDof d.layout c i).toNat) ∧
      t.faceSystemToComponent = numberComponents d.layout.components.toNat
        (t.faceCheckDof.map fun k => d.masks.getD k default) := by
  unfold defaultTables at h
  dsimp only at h
  by_cases hneg : d.layout.dofsPerFace < 0
  · simp [hneg, liftFault, Except.mapError, bind, Except.bind] at h
  rw [if_neg hneg, bind_eq_ok] at h
  obtain ⟨checkDofs, hcheck, h⟩ := h
  cases h
  refine ⟨?_, rfl⟩
  -- each face dof's entry is its checked cell dof, once the check of its mask passes
  have hlen := length_eq_of_mapM_eq_ok hcheck
  refine List.ext_getElem (by simpa using hlen) fun i hi hi' => ?_
  have hdof := getElem_of_mapM_eq_ok hcheck (i := i) (by simpa using hi') hi
  simp only [List.getElem_range, bind_eq_ok, pure, Except.pure, Except.ok.injEq] at hdof
  obtain ⟨-, -, hdof⟩ := hdof
  simp only [List.getElem_map, List.getElem_range]
  exact hdof.symm

namespace Store

/-- Face dof `j` has mask `m` on every face, and its component index follows `m`: it is reported
not primitive when `m` does not select one component alone, and is that component, with a rank,
when it does. -/
structure FaceComponentAt (s : Store) (j : Nat) (m : Mask) : Prop where
  mask : ∀ f < s.cell.facesPerCell, ∃ i, s.faceToCellIndex j f = .ok i ∧ s.masks.getD i default = m
  notPrimitive : m.single? = none →
    ∃ e, s.faceSystemToComponentIndex j = .error (.reported e) ∧ e.kind = some .notPrimitive
  primitive : ∀ c, m.single? = some c → ∃ r : Nat, s.faceSystemToComponentIndex j = .ok ⟨c, r⟩

/-- Every face dof of the store has one mask on every face, which its component index follows. -/
def FaceComponentsFollowMasks (s : Store) : Prop :=
  ∀ j : Nat, (j : Int) < s.layout.dofsPerFace → ∃ m, s.FaceComponentAt j m

/-- **The cell dof checked for a face dof lies on a face** of an element numbered object kind by
object kind with exact offsets: the face whose objects of the face dof's kind are the cell's
first ones. -/
theorem WellFormed.exists_face_faceCheckDof {s : Store} (hs : s.WellFormed)
    (heo : s.entityOrdered = true) (hfit : s.layout.cellPrefix s.cell 4 < 2 ^ 63) {j : Nat}
    (hj : (j : Int) < s.layout.dofsPerFace) :
    ∃ f < s.cell.facesPerCell, s.faceToCellIndex j f = .ok (faceCheckDof s.layout s.cell j).toNat := by
  obtain ⟨κ, hκ, o, ho, e, he, hjeq⟩ := hs.exists_faceObject_dof hfit hj
  obtain ⟨f, hf, hself⟩ := s.cell.exists_face_firstObjects hκ
  refine ⟨f, hf, ?_⟩
  rw [hjeq, faceCheckDof_objectwise hs.layout_wf hfit hκ ho he]
  exact hs.faceToCellIndex_objectwise heo hfit hκ ho he hf (hself o ho)

/-- The component index of face dof `j` reads the mask of its checked cell dof `i`: reported not
primitive unless the mask selects one component alone, and read from the face component table
when it does. -/
theorem faceSystemToComponentIndex_of_check {s : Store} {j i : Nat}
    (hj : (j : Int) < s.layout.dofsPerFace) (hcheck : s.tables.faceCheckDof.getD j 0 = i)
    (hi : (i : Int) < s.dofsPerCell) :
    s.faceSystemToComponentIndex j =
      if (s.masks.getD i default).count = 1 then .ok (s.tables.faceSystemToComponent.getD j .invalid)
      else report (.faceNotPrimitive s.name j i) := by
  have hin : 0 ≤ (j : Int) ∧ (j : Int) < s.layout.dofsPerFace := ⟨Int.natCast_nonneg j, hj⟩
  unfold faceSystemToComponentIndex
  simp only [hin, and_self, not_true_eq_false, if_false, Int.toNat_natCast, hcheck,
    isPrimitiveShape_of_lt hi]
  by_cases h : (s.masks.getD i default).count = 1 <;>
    simp [h, report, bind, Except.bind, pure, Except.pure, -List.getD_eq_getElem?_getD]

/-- **A face dof whose checked cell dof lies on a face** has the component index its mask gives,
when that mask is the same on every face and the face component table holds its component. -/
theorem WellFormed.faceComponentAt {s : Store} (hs : s.WellFormed) {j : Nat}
    (hj : (j : Int) < s.layout.dofsPerFace) {m : Mask}
    (hmask : ∀ f < s.cell.facesPerCell, ∃ i, s.faceToCellIndex j f = .ok i ∧ s.masks.getD i default = m)
    (hcheck : ∃ f < s.cell.facesPerCell, s.faceToCellIndex j f = .ok (s.tables.faceCheckDof.getD j 0))
    (hentry : ∀ c, m.single? = some c →
      ∃ r : Nat, s.tables.faceSystemToComponent.getD j .invalid = ⟨c, r⟩) :
    s.FaceComponentAt j m := by
  obtain ⟨f, hf, hcf⟩ := hcheck
  obtain ⟨i, hi, hm⟩ := hmask f hf
  -- the checked cell dof is the face's cell dof, so its mask is `m`
  have hcheck : s.tables.faceCheckDof.getD j 0 = i := Except.ok.inj (hcf.symm.trans hi)
  have hquery := faceSystemToComponentIndex_of_check hj hcheck (hs.lt_of_faceToCellIndex hi)
  rw [hm] at hquery
  refine ⟨hmask, fun hnone => ?_, fun c hc => ?_⟩
  · rw [hquery, if_neg (Mask.single?_eq_none.1 hnone)]
    exact ⟨_, rfl, rfl⟩
  · obtain ⟨r, hr⟩ := hentry c hc
    rw [hquery, if_pos (Mask.single?_eq_some.1 hc).1, hr]
    exact ⟨r, rfl⟩

/-- The masks of a store go by object kind on the cell's boundary: on the vertices and lines, and
in 3D the quadrilaterals, the `e`-th dof of every object of a kind has the mask of the `e`-th dof of
the first one. -/
def MasksByKind (s : Store) : Prop :=
  ∀ κ < s.cell.dim, ∀ v < s.cell.objectsPerCell.getD κ 0, ∀ e < (s.layout.countOf κ).toNat,
    s.masks.getD (s.layout.firstOf κ + v * s.layout.countOf κ + e).toNat default =
      s.masks.getD (s.layout.firstOf κ + e).toNat default

instance (s : Store) : Decidable s.MasksByKind :=
  inferInstanceAs (Decidable (∀ κ < s.cell.dim, ∀ v < s.cell.objectsPerCell.getD κ 0,
    ∀ e < (s.layout.countOf κ).toNat,
      s.masks.getD (s.layout.firstOf κ + v * s.layout.countOf κ + e).toNat default =
        s.masks.getD (s.layout.firstOf κ + e).toNat default))

/-- **With masks by kind, a face dof has one mask on every face**: that of its place on the first
object of its kind. -/
theorem WellFormed.mask_faceToCellIndex {s : Store} (hs : s.WellFormed) (heo : s.entityOrdered = true)
    (hfit : s.layout.cellPrefix s.cell 4 < 2 ^ 63) (huni : s.MasksByKind) {κ o e : Nat}
    (hκ : κ < s.cell.dim) (ho : o < s.cell.objectsPerFace.getD κ 0) (he : (e : Int) < s.layout.countOf κ) :
    ∀ f < s.cell.facesPerCell, ∃ i,
      s.faceToCellIndex (s.layout.facePrefix s.cell κ + o * s.layout.countOf κ + e) f = .ok i ∧
      s.masks.getD i default = s.masks.getD (s.layout.firstOf κ + e).toNat default := by
  intro f hf
  obtain ⟨v, hv, hobj⟩ := s.cell.exists_faceObject hκ hf ho
  have hfirst := (hs.layout_wf.exact hfit).1 κ (by have := s.cell.dim_le; omega)
  refine ⟨_, hs.faceToCellIndex_objectwise heo hfit hκ ho he hf hobj, ?_⟩
  rw [← hfirst]
  exact huni κ hκ v hv e (by omega)

/-- A mask read from a well-formed store, in range or not, has no more entries than the store has
components. -/
theorem WellFormed.size_masks_getD {s : Store} (hs : s.WellFormed) (k : Nat) :
    (s.masks.getD k default).size ≤ s.components.toNat := by
  by_cases hk : k < s.masks.length
  · have := hs.mask_size _ (getD_mem_of_lt default hk)
    omega
  · -- past the masks, the empty mask
    rw [List.getD_eq_default _ _ (by omega)]
    exact Nat.zero_le _

/-- **A simple element whose masks go by kind** has face component indices that follow its masks,
when its counts fit a machine word. -/
theorem faceComponentsFollowMasks_of_ofDefinition {d : Definition} {dim components degree : Int}
    {counts : List Int} {s : Store}
    (hfd : DofLayout.ofCounts? dim counts components degree = .ok d.layout)
    (hs : ofDefinition d = .ok s) (hfit : s.layout.cellPrefix s.cell 4 < 2 ^ 63)
    (huni : s.MasksByKind) : s.FaceComponentsFollowMasks := by
  have hwf := wellFormed_of_ofDefinition hfd hs
  obtain ⟨c, tables, -, htables, hasm⟩ := ofDefinition_eq_ok hs
  obtain ⟨_, _, _, _, -, -, -, -, hs'⟩ := assemble_eq_ok hasm
  have heo : s.entityOrdered = true := by rw [hs']; rfl
  obtain ⟨hcheckDofs, hface⟩ := defaultTables_faceTables htables
  have htab : s.tables = tables := by rw [hs']
  have hmasks : s.masks = d.masks := by rw [hs']
  have hlay : s.layout = d.layout := by rw [hs']
  have hcell : s.cell = c := by rw [hs']
  intro j hj
  obtain ⟨κ, hκ, o, ho, e, he, hjeq⟩ := hwf.exists_faceObject_dof hfit hj
  have hmask := hwf.mask_faceToCellIndex heo hfit huni hκ ho he
  rw [← hjeq] at hmask
  -- the checked cell dof lies on a face, so its mask is the face dof's mask too
  obtain ⟨f, hf, hcf⟩ := hwf.exists_face_faceCheckDof heo hfit hj
  have hcheck : s.tables.faceCheckDof.getD j 0 = (faceCheckDof s.layout s.cell j).toNat := by
    rw [htab, hcheckDofs, getD_map_range (by rw [← hlay]; omega), hlay, hcell]
  rw [← hcheck] at hcf
  refine ⟨_, hwf.faceComponentAt hj hmask ⟨f, hf, hcf⟩ fun c' hc' => ?_⟩
  obtain ⟨i, hi, hmi⟩ := hmask f hf
  have hci : s.tables.faceCheckDof.getD j 0 = i := Except.ok.inj (hcf.symm.trans hi)
  -- the face component table numbers the masks of the checked cell dofs
  have hsize : ∀ m ∈ tables.faceCheckDof.map (fun k => d.masks.getD k default),
      m.size ≤ d.layout.components.toNat := by
    intro m hm
    obtain ⟨k, -, rfl⟩ := List.mem_map.1 hm
    have := hwf.size_masks_getD k
    rwa [hmasks, Store.components, hlay] at this
  have hlen : j < (tables.faceCheckDof.map fun k => d.masks.getD k default).length := by
    rw [List.length_map, hcheckDofs, List.length_map, List.length_range, ← hlay]
    omega
  have hsingle : ((tables.faceCheckDof.map fun k => d.masks.getD k default).getD j default).single? =
      some c' := by
    rw [List.getD_eq_getElem _ _ hlen, List.getElem_map, ← List.getD_eq_getElem _ 0,
      ← htab, hci, ← hmasks, hmi]
    exact hc'
  rw [htab, hface, numberComponents_eq hsize, getD_map_range hlen]
  exact ⟨_, componentEntry_eq_mk.2 ⟨hsingle, rfl⟩⟩

end Store

/-- **The face tables of a composite**: the component index of a face dof is its block dof's,
moved; a blocked composite checks the cell dof of each face dof on face `0`, and an interleaved
one the cell dof of the same kind at the same offset. -/
theorem systemTables_faceTables {c : Hypercube} {p : Packing} {blocks : List Block}
    {cell face : List BlockDof} {fd : DofLayout} {t : IndexTables} {fm : Option (List (List Nat))}
    (h : systemTables c p blocks cell face fd = .ok (t, fm)) :
    t.faceSystemToComponent = face.map (fun bd =>
      shiftIndex (blockAt blocks bd) ((blockAt blocks bd).store.faceSystemToComponentIndex bd.index)) ∧
    (p = .blocked → face.mapM (blockFaceCell blocks · 0) = .ok t.faceCheckDof) ∧
    (p ≠ .blocked →
      t.faceCheckDof = (List.range face.length).map fun (i : Nat) => (faceCheckDof fd c i).toNat) := by
  unfold systemTables at h
  cases p with
  | blocked =>
    simp only [bind_eq_ok] at h
    obtain ⟨check, hcheck, table, -, h⟩ := h
    simp only [pure, Except.pure, Except.ok.injEq, Prod.mk.injEq] at h
    obtain ⟨_, rfl, h⟩ := h
    obtain ⟨rfl, -⟩ := h
    exact ⟨rfl, fun _ => hcheck, fun hp => absurd rfl hp⟩
  | interleaved | unknown _ =>
    simp only [pure, Except.pure, bind, Except.bind, Except.ok.injEq, Prod.mk.injEq] at h
    obtain ⟨rfl, -⟩ := h
    exact ⟨rfl, fun hp => (nomatch hp), fun _ => rfl⟩

namespace CompositeRun

variable {p : Packing} {specs : List (Option Store × Int)} {E : Store}
  (r : CompositeRun p specs E) (hwf : ∀ x ∈ r.bases, x.1.WellFormed)
include hwf

/-- A face dof of a composite with a place is that face dof of the block its place names. -/
theorem getElem?_faceLayout {j : Int} {x : BaseIndex} (hj : E.faceSystemToBaseIndex j = .ok x) :
    0 ≤ j ∧ (faceLayout r.cell p (blocksOf r.bases))[j.toNat]? =
        some ⟨blockIndex r.bases x.base x.copy, x.index⟩ ∧
      x ∈ blockPlaces r.bases (·.layout.dofsPerFace.toNat) := by
  obtain ⟨hj0, hjlt⟩ := Store.faceSystemToBaseIndex_lt hj
  obtain ⟨y, hy, hjy⟩ := (r.faceSystemToBaseIndex_numbering hwf).mapsTo j hj0 hjlt
  rw [hj, Except.ok.injEq] at hjy
  subst hjy
  have hlen := r.length_faceSystemToBase hwf
  rw [r.faceSystemToBase_eq, List.length_map] at hlen
  have hn : j.toNat < (faceLayout r.cell p (blocksOf r.bases)).length := by omega
  have hβ := (r.face_ordered hwf).1 _ (List.getElem_mem hn)
  -- the table lists the places of the layout
  have hx : blockPlace (blocksOf r.bases) (faceLayout r.cell p (blocksOf r.bases))[j.toNat] = x := by
    unfold Store.faceSystemToBaseIndex at hj
    rw [r.faceSystemToBase_eq] at hj
    obtain ⟨-, -, hget⟩ := lookup_eq_ok.1 hj
    rw [← hget, List.getD_eq_getElem?_getD, List.getElem?_map, List.getElem?_eq_getElem hn]
    rfl
  refine ⟨hj0, ?_, hy⟩
  rw [List.getElem?_eq_getElem hn, ← hx]
  simp only [blockPlace, blockAt]
  rw [← eq_blockIndex hβ]

/-- The component index a composite stores for a face dof is that of its place in its base, moved
past the components of the earlier copies. -/
theorem faceSystemToComponent_getD {j : Int} {x : BaseIndex}
    (hj : E.faceSystemToBaseIndex j = .ok x) :
    E.tables.faceSystemToComponent.getD j.toNat .invalid =
      shiftIndex ((blocksOf r.bases).getD (blockIndex r.bases x.base x.copy) default)
        ((r.bases.getD x.base default).1.faceSystemToComponentIndex x.index) := by
  obtain ⟨-, hface, hx⟩ := r.getElem?_faceLayout hwf hj
  obtain ⟨hb, ht, -⟩ := (mem_blockPlaces _ _).1 hx
  obtain ⟨hs, -, -⟩ := r.block_place hwf hb ht
  rw [r.tables_store, (systemTables_faceTables r.tables_eq).1, List.getD_eq_getElem?_getD,
    List.getElem?_map, hface, Option.map_some, Option.getD_some]
  simp only [blockAt, hs]

/-- **The cell dof a composite checks for a face dof lies on a face**: on face `0` in a blocked
composite, which checks exactly that one, and in an interleaved one, numbered object kind by object
kind, on the face whose objects of the face dof's kind are the cell's first ones. -/
theorem exists_face_checkDof {j : Nat} (hj : (j : Int) < E.layout.dofsPerFace) :
    ∃ f < E.cell.facesPerCell, E.faceToCellIndex j f = .ok (E.tables.faceCheckDof.getD j 0) := by
  have hlen := r.length_faceSystemToBase hwf
  rw [r.faceSystemToBase_eq, List.length_map] at hlen
  have hn : j < (faceLayout r.cell p (blocksOf r.bases)).length := by omega
  obtain ⟨-, hblocked, hinterleaved⟩ := systemTables_faceTables r.tables_eq
  rcases r.packing_eq with hp | hp
  · have hE := r.wellFormed hwf
    have hne : p ≠ .blocked := by rw [hp]; intro h; cases h
    have heo : E.entityOrdered = true := by
      rw [r.entityOrdered_store, (systemTables_eq_ok r.tables_eq).2.2.2.2 hne]
      rfl
    have hfit : E.layout.cellPrefix E.cell 4 < 2 ^ 63 := by
      rw [r.layout_store, r.cell_store]
      exact r.layout_cellPrefix_lt_of_interleaved hwf hp
    obtain ⟨f, hf, hcf⟩ := hE.exists_face_faceCheckDof heo hfit hj
    refine ⟨f, hf, ?_⟩
    rw [hcf, r.tables_store, hinterleaved hne, getD_map_range hn, r.layout_store, r.cell_store]
  · have hmap := hblocked hp
    have hf0 := r.cell.facesPerCell_pos
    have hcheck := length_eq_of_mapM_eq_ok hmap
    refine ⟨0, by rw [r.cell_store]; exact hf0, ?_⟩
    rw [r.faceToCellIndex_blocked hp hf0 hj (List.getElem?_eq_getElem hn),
      getElem_of_mapM_eq_ok hmap hn (by rw [hcheck]; exact hn), r.tables_store,
      List.getD_eq_getElem _ _ (by rw [hcheck]; exact hn)]

/-- **The face component indices of a composite follow its masks** when those of its bases do: a
face dof has, on every face, the mask of its place in its base there, moved past the earlier
copies' components, and so does the cell dof the composite checks. -/
theorem faceComponentsFollowMasks (hbases : ∀ x ∈ r.bases, x.1.FaceComponentsFollowMasks) :
    E.FaceComponentsFollowMasks := by
  intro j hj
  obtain ⟨x, hx, hjx⟩ :=
    (r.faceSystemToBaseIndex_numbering hwf).mapsTo j (Int.natCast_nonneg j) hj
  obtain ⟨hb, ht, hk⟩ := (mem_blockPlaces _ _).1 hx
  obtain ⟨hS, hcell⟩ := r.base_wellFormed hwf hb
  obtain ⟨mS, hmS⟩ := hbases _ (getD_mem_of_lt default hb) x.index (by omega)
  obtain ⟨-, hoff, hle⟩ := r.block_place hwf hb ht
  have hf0 := (r.bases.getD x.base default).1.cell.facesPerCell_pos
  -- the base's mask of the face dof fits, moved, among the composite's components
  have hfits : ((blocksOf r.bases).getD (blockIndex r.bases x.base x.copy) default).compOffset +
      mS.size ≤ (summedComponents (blocksOf r.bases)).toNat := by
    obtain ⟨i, -, hmi⟩ := hmS.mask 0 hf0
    have hsize := hS.size_masks_getD i
    rw [hmi] at hsize
    rw [hoff]
    omega
  refine ⟨shiftMask ((blocksOf r.bases).getD (blockIndex r.bases x.base x.copy) default)
      (summedComponents (blocksOf r.bases)).toNat mS,
    (r.wellFormed hwf).faceComponentAt hj (fun f hf => ?_) (r.exists_face_checkDof hwf hj)
      fun c hc => ?_⟩
  · rw [r.cell_store] at hf
    obtain ⟨i, k, hi, hk', hsys⟩ := r.faceToCellIndex_place hwf hf hjx
    obtain ⟨i', hi', hmi'⟩ := hmS.mask f (by rw [hcell]; exact hf)
    obtain rfl : k = i' := Except.ok.inj (hk'.symm.trans hi')
    refine ⟨i, hi, ?_⟩
    have hmask := r.mask_place hwf hsys
    rw [Int.toNat_natCast] at hmask
    rw [hmask, hmi']
  · rw [single?_shiftMask _ hfits] at hc
    obtain ⟨c', hc', rfl⟩ := Option.map_eq_some_iff.1 hc
    obtain ⟨r', hr'⟩ := hmS.primitive c' hc'
    have hentry := r.faceSystemToComponent_getD hwf hjx
    rw [Int.toNat_natCast, hr'] at hentry
    exact ⟨r', hentry⟩

end CompositeRun

namespace Store

/-- Stores built from simple elements whose masks go by object kind and whose dofs, counted
exactly, fit a machine word, and from composites of such stores. -/
inductive BuiltByKind : Store → Prop
  | simple {d : Definition} {dim components degree : Int} {counts : List Int} {s : Store}
      (hfd : DofLayout.ofCounts? dim counts components degree = .ok d.layout)
      (h : ofDefinition d = .ok s) (hfit : s.layout.cellPrefix s.cell 4 < 2 ^ 63)
      (huni : s.MasksByKind) : BuiltByKind s
  | composite {p : Packing} {bases : List (Store × Nat)} {s : Store}
      (hbases : ∀ x ∈ bases, BuiltByKind x.1) (h : Store.composite p (asSpecs bases) = .ok s) :
      BuiltByKind s

theorem BuiltByKind.built {s : Store} (h : s.BuiltByKind) : s.Built := by
  induction h with
  | simple hfd h => exact .simple hfd h
  | composite _ h ih => exact .composite ih h

/-- The face component indices of every store built by kind follow its masks, by induction on how
it was built. -/
theorem BuiltByKind.faceComponentsFollowMasks {s : Store} (h : s.BuiltByKind) :
    s.FaceComponentsFollowMasks := by
  induction h with
  | simple hfd h hfit huni => exact faceComponentsFollowMasks_of_ofDefinition hfd h hfit huni
  | composite hbases h ih =>
    obtain ⟨r⟩ := composite_eq_ok h
    -- the run checked exactly the given bases
    have hb := asSpecs_injective (checkBases_eq_ok r.checkBases_eq).1
    exact r.faceComponentsFollowMasks (fun x hx => (hbases x (hb ▸ hx)).built.wellFormed)
      fun x hx => ih x (hb ▸ hx)

/-- **The component index of a face dof follows its masks on every face.** In an element built
from simple elements whose masks go by object kind and whose counts fit a machine word, and from
composites of such elements in either packing and at any depth, every face dof `j` lies on every
face at a shape function nonzero in the same components `m`. Its component index is reported not
primitive when `m` does not select one component alone; when `m` selects `c` alone, it is `(c, r)`
for a component `c` of the element and a rank `r ≥ 0`. -/
theorem BuiltByKind.face_component_indices {E : Store} (hE : E.BuiltByKind) :
    ∀ j : Nat, (j : Int) < E.layout.dofsPerFace → ∃ m : Mask,
      (∀ f < E.cell.facesPerCell, ∃ i : Nat,
        E.faceToCellIndex j f = .ok i ∧ E.nonzeroComponents i = .ok m) ∧
      (m.count ≠ 1 → ∃ e, E.faceSystemToComponentIndex j = .error (.reported e) ∧
        e.kind = some .notPrimitive) ∧
      ∀ c : Nat, m.count = 1 → m.get c = true →
        (c : Int) < E.components ∧ ∃ r : Nat, E.faceSystemToComponentIndex j = .ok ⟨c, r⟩ := by
  intro j hj
  have hs := hE.built.wellFormed
  obtain ⟨m, hm⟩ := hE.faceComponentsFollowMasks j hj
  refine ⟨m, fun f hf => ?_, fun hc => hm.notPrimitive (Mask.single?_eq_none.2 hc),
    fun c hc hget => ?_⟩
  · obtain ⟨i, hi, hmi⟩ := hm.mask f hf
    exact ⟨i, hi, by rw [nonzeroComponents_of_lt (hs.lt_of_faceToCellIndex hi), hmi]⟩
  · have hsingle := Mask.single?_eq_some.2 ⟨hc, hget⟩
    -- the selected component is within the mask, which has the element's components
    obtain ⟨i, -, hmi⟩ := hm.mask 0 E.cell.facesPerCell_pos
    have hsize := hs.size_masks_getD i
    rw [hmi] at hsize
    have hlt := Mask.lt_size_of_single? hsingle
    exact ⟨by simp only [Store.components] at hsize ⊢; omega, hm.primitive c hsingle⟩

end Store

/-- The vector bilinear element on the square: two dofs on each vertex, the first in component `0`
and the second in component `1`. -/
def vectorBilinearDefinition : Definition :=
  { name := "Custom", layout := okValue (DofLayout.ofCounts? 2 [2, 0, 0] 2 1)
    additive := List.replicate 8 false
    masks := [⟨[true, false]⟩, ⟨[false, true]⟩, ⟨[true, false]⟩, ⟨[false, true]⟩,
      ⟨[true, false]⟩, ⟨[false, true]⟩, ⟨[true, false]⟩, ⟨[false, true]⟩] }

def vectorBilinear : Store := okValue (Store.ofDefinition vectorBilinearDefinition)

/-- Two vector bilinear elements, interleaved. -/
def vectorBilinearPair : Store :=
  okValue (Store.composite .interleaved (asSpecs [(vectorBilinear, 1), (vectorBilinear, 1)]))

/-- In the interleaved pair of vector bilinear elements, face dof `1` has one mask on every face and
its component index follows it. -/
theorem vectorBilinearPair_face_component_indices :
    vectorBilinearPair.BuiltByKind ∧ ∃ m : Mask,
      (∀ f < vectorBilinearPair.cell.facesPerCell, ∃ i : Nat,
        vectorBilinearPair.faceToCellIndex 1 f = .ok i ∧
          vectorBilinearPair.nonzeroComponents i = .ok m) ∧
      (m.count ≠ 1 → ∃ e, vectorBilinearPair.faceSystemToComponentIndex 1 = .error (.reported e) ∧
        e.kind = some .notPrimitive) ∧
      ∀ c : Nat, m.count = 1 → m.get c = true →
        (c : Int) < vectorBilinearPair.components ∧
          ∃ r : Nat, vectorBilinearPair.faceSystemToComponentIndex 1 = .ok ⟨c, r⟩ := by
  have hfd : DofLayout.ofCounts? 2 [2, 0, 0] 2 1 = .ok vectorBilinearDefinition.layout :=
    eq_ok_okValue (by decide)
  have hs : Store.ofDefinition vectorBilinearDefinition = .ok vectorBilinear :=
    eq_ok_okValue (by decide)
  have hbase : vectorBilinear.BuiltByKind := .simple hfd hs (by decide) (by decide)
  have hpair : Store.composite .interleaved (asSpecs [(vectorBilinear, 1), (vectorBilinear, 1)]) =
      .ok vectorBilinearPair := eq_ok_okValue (by decide)
  have hE : vectorBilinearPair.BuiltByKind := .composite (by simpa using hbase) hpair
  exact ⟨hE, Store.BuiltByKind.face_component_indices hE 1 (by decide)⟩

/-- A segment with one dof on each vertex, the left one in component `0` and the right one in
component `1`: its masks do not go by kind. -/
def skewSegmentDefinition : Definition :=
  { name := "Custom", layout := okValue (DofLayout.ofCounts? 1 [1, 0] 2 0)
    additive := [false, false], masks := [⟨[true, false]⟩, ⟨[false, true]⟩] }

def skewSegment : Store := okValue (Store.ofDefinition skewSegmentDefinition)

/-- A square with one dof on each vertex, the second one nonzero in both components: its masks do
not go by kind. -/
def skewSquareDefinition : Definition :=
  { name := "Custom", layout := okValue (DofLayout.ofCounts? 2 [1, 0, 0] 2 0)
    additive := List.replicate 4 false
    masks := [⟨[true, false]⟩, ⟨[true, true]⟩, ⟨[false, true]⟩, ⟨[true, false]⟩] }

def skewSquare : Store := okValue (Store.ofDefinition skewSquareDefinition)

/-- One copy of the skew square, blocked. -/
def skewSquareBlocked : Store := okValue (Store.composite .blocked (asSpecs [(skewSquare, 1)]))

/-- **Masks that do not go by kind break the face component indices.** The skew segment gives its
face dof component `0`, read at the left vertex, while on the right face that dof is the right
vertex's, nonzero in component `1` alone. The blocked skew square checks face dof `1` at its cell
dof on face `0`, which is primitive, but reads the component index its base gave, checked at the
second vertex, which is not: it answers the marker `(-1, -1)` of a shape function that is not
primitive, with no error. -/
theorem skewMasks_faceComponents :
    skewSegment.faceSystemToComponentIndex 0 = .ok ⟨0, 0⟩ ∧
      skewSegment.faceToCellIndex 0 1 = .ok 1 ∧
      skewSegment.nonzeroComponents 1 = .ok ⟨[false, true]⟩ ∧
      skewSquareBlocked.faceToCellIndex 1 0 = .ok 2 ∧
      skewSquareBlocked.nonzeroComponents 2 = .ok ⟨[false, true]⟩ ∧
      skewSquareBlocked.faceSystemToComponentIndex 1 = .ok .invalid :=
  ⟨rfl, rfl, rfl, rfl, rfl, rfl⟩

end FiniteElements.Element
