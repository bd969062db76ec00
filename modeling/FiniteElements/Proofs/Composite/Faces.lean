import FiniteElements.Proofs.Composite.Places
import FiniteElements.Proofs.Element.FaceDofs

/-!
# The faces of a composite

The face dofs of a composite are the face dofs of all copies of its bases
(`CompositeRun.faceSystemToBaseIndex_numbering`), and its face table puts each of them where its
base does: face dof `j`, placed at face dof `k` of copy `t` of base `b`, lies on face `f` at the
cell dof placed at the cell dof of `k` on `f` in the same copy
(`CompositeRun.faceToCellIndex_place`).

The two packings get there differently. A blocked composite reads its face table off its blocks,
each moved past the cell dofs of the blocks before it (`CompositeRun.faceToCellIndex_blocked`). An
interleaved composite never asks its bases: it numbers the faces of the reference cell with its
own summed counts. It agrees with them because both number the dofs on a face object by the cell
object that face object is (`Store.WellFormed.faceToCellIndex_objectwise`), and on every object
the composite puts the copies' dofs in one order, on the faces as on the cell
(`CompositeRun.exists_objectwise_of_faceSystemToBaseIndex`,
`CompositeRun.systemToBaseIndex_interleaved`).

So distinct face dofs of a composite lie on distinct cell dofs when those of its bases do
(`CompositeRun.faceInjective`), and a shape function of a composite has support on a face exactly
when its place in its base does (`CompositeRun.hasSupportOnFace_iff`).

## Main results

* `CompositeRun.faceToCellIndex_place`
* `CompositeRun.faceInjective`, `CompositeRun.hasSupportOnFace_iff`
* `composite_faces`
-/

namespace FiniteElements.Element

set_option autoImplicit false

open FiniteElements.Cell

/-- A face dof with a place is a face dof. -/
theorem Store.faceSystemToBaseIndex_lt {s : Store} {j : Int} {x : BaseIndex}
    (h : s.faceSystemToBaseIndex j = .ok x) : 0 ≤ j ∧ j < s.layout.dofsPerFace := by
  unfold Store.faceSystemToBaseIndex at h
  exact ⟨(lookup_eq_ok.1 h).1, (lookup_eq_ok.1 h).2.1⟩

/-- A shape function with a place is a shape function. -/
theorem Store.systemToBaseIndex_lt {s : Store} {i : Int} {x : BaseIndex}
    (h : s.systemToBaseIndex i = .ok x) : 0 ≤ i ∧ i < s.dofsPerCell := by
  unfold Store.systemToBaseIndex at h
  exact ⟨(lookup_eq_ok.1 h).1, (lookup_eq_ok.1 h).2.1⟩

/-- With exact offsets, every face dof is the `e`-th dof on some object of some kind of the face. -/
theorem DofLayout.Wf.exists_faceObject_dof {fd : DofLayout} {c : Hypercube} (hw : fd.Wf c)
    (hfit : fd.cellPrefix c 4 < 2 ^ 63) {j : Nat} (hj : (j : Int) < fd.dofsPerFace) :
    ∃ κ < c.dim, ∃ o < c.objectsPerFace.getD κ 0, ∃ e : Nat,
      (e : Int) < fd.countOf κ ∧ (j : Int) = fd.facePrefix c κ + o * fd.countOf κ + e := by
  have hn := hw.count_nonneg
  have hface := DofLayout.facePrefix_eq_objectOffset hn (c := c) c.dim
  rw [DofLayout.facePrefix_dim, ← (hw.exact hfit).2.2.2] at hface
  obtain ⟨κ, hκ, o, ho, e, he, hjeq⟩ := exists_objectwise_of_lt (show j < objectOffset
    (c.objectsPerFace.getD · 0) (fun k => (fd.countOf k).toNat) c.dim by omega)
  refine ⟨κ, hκ, o, ho, e, by omega, ?_⟩
  rw [hjeq, DofLayout.facePrefix_eq_objectOffset hn κ]
  push_cast
  rw [Int.toNat_of_nonneg (hn κ)]

theorem Store.WellFormed.exists_faceObject_dof {s : Store} (hs : s.WellFormed)
    (hfit : s.layout.cellPrefix s.cell 4 < 2 ^ 63) {j : Nat}
    (hj : (j : Int) < s.layout.dofsPerFace) :
    ∃ κ < s.cell.dim, ∃ o < s.cell.objectsPerFace.getD κ 0, ∃ e : Nat,
      (e : Int) < s.layout.countOf κ ∧
        (j : Int) = s.layout.facePrefix s.cell κ + o * s.layout.countOf κ + e :=
  hs.layout_wf.exists_faceObject_dof hfit hj

namespace CompositeRun

variable {p : Packing} {specs : List (Option Store × Int)} {E : Store}
  (r : CompositeRun p specs E)

include r in
/-- **A blocked composite takes its face table from its blocks**: face dof `j` on face `f` is the
cell dof its block puts there, moved past the cell dofs of the earlier blocks. -/
theorem faceToCellIndex_blocked (hp : p = .blocked) {f j : Nat} (hf : f < r.cell.facesPerCell)
    (hj : (j : Int) < E.layout.dofsPerFace) {bd : BlockDof}
    (hbd : (faceLayout r.cell p (blocksOf r.bases))[j]? = some bd) :
    E.faceToCellIndex j f = blockFaceCell (blocksOf r.bases) bd f := by
  obtain ⟨table, hfm, htable⟩ := (systemTables_eq_ok r.tables_eq).2.2.2.1 hp
  obtain ⟨hjlen, hget⟩ := List.getElem?_eq_some_iff.1 hbd
  have hft : f < table.length := by rw [length_eq_of_mapM_eq_ok htable]; simpa using hf
  have hrow := getElem_of_mapM_eq_ok htable (i := f) (by simpa using hf) hft
  simp only [List.getElem_range] at hrow
  have hjt : j < table[f].length := by rw [length_eq_of_mapM_eq_ok hrow]; exact hjlen
  have hent := getElem_of_mapM_eq_ok hrow (i := j) hjlen hjt
  rw [hget] at hent
  obtain ⟨-, hrows⟩ := tabulateFaceDofs_eq_ok r.faceDofs_store
  obtain ⟨v, hv, -, -, hentry⟩ := (hrows f hf).2 j (by rw [← r.layout_store]; omega)
  rw [hfm] at hv
  simp only [faceDofOf, pure, Except.pure, Except.ok.injEq, Int.toNat_natCast] at hv
  rw [Store.faceToCellIndex_of_lt hj (by rw [r.cell_store]; exact hf), hentry, ← hv, hent,
    Int.toNat_natCast]
  simp only [List.getD_eq_getElem?_getD, List.getElem?_eq_getElem hft, List.getElem?_eq_getElem hjt,
    Option.getD_some]

variable (hwf : ∀ x ∈ r.bases, x.1.WellFormed)
include hwf

/-- Every base is a well-formed store on the composite's cell. -/
theorem base_wellFormed {b : Nat} (hb : b < r.bases.length) :
    (r.bases.getD b default).1.WellFormed ∧ (r.bases.getD b default).1.cell = r.cell := by
  have hx := getD_mem_of_lt default hb
  refine ⟨hwf _ hx, ?_⟩
  have hcell := (hwf _ hx).layout_wf.cell
  rw [((checkBases_eq_ok r.checkBases_eq).2 _ hx).2.1, r.cell_eq] at hcell
  simpa using hcell.symm

/-- In a blocked composite a face dof of a copy of a base lies where the base puts it, moved past
the cell dofs of the earlier copies. -/
theorem faceToCellIndex_place_blocked (hp : p = .blocked) {f : Nat} (hf : f < r.cell.facesPerCell)
    {j : Int} {x : BaseIndex} (hj : E.faceSystemToBaseIndex j = .ok x) :
    ∃ i k, E.faceToCellIndex j f = .ok i ∧
      (r.bases.getD x.base default).1.faceToCellIndex x.index f = .ok k ∧
      E.systemToBaseIndex i = .ok ⟨x.base, x.copy, k⟩ := by
  have hjlt := (Store.faceSystemToBaseIndex_lt hj).2
  obtain ⟨hx, rfl⟩ := (r.faceSystemToBaseIndex_blocked hwf hp).1 hj
  obtain ⟨b, t, k⟩ := x
  obtain ⟨hb, ht, hk⟩ := (mem_blockPlaces _ _).1 hx
  dsimp only at hb ht hk hjlt ⊢
  obtain ⟨hS, hcell⟩ := r.base_wellFormed hwf hb
  obtain ⟨hs, -, -⟩ := getD_blocksOf_blockIndex hb ht
  have hfS : f < (r.bases.getD b default).1.cell.facesPerCell := by rw [hcell]; exact hf
  have hkS : (k : Int) < (r.bases.getD b default).1.layout.dofsPerFace := by omega
  -- the copy's block holds the face dof, and puts it on the base's cell dof of face `f`
  have hbd : (faceLayout r.cell p (blocksOf r.bases))[
      blockStart r.bases (·.layout.dofsPerFace.toNat) b t + k]? = some ⟨blockIndex r.bases b t, k⟩ := by
    subst hp
    rw [faceLayout_blocked]
    exact getElem?_blockwise_blockStart hb ht (·.layout.dofsPerFace.toNat) hk
  have hoff : ((blocksOf r.bases).getD (blockIndex r.bases b t) default).cellOffset =
      blockStart r.bases (·.dofsPerCell.toNat) b t := by
    rw [cellOffset_getD_blocksOf (blockIndex_lt hb ht)]
    exact sum_range_blocksOf hb ht (·.dofsPerCell.toNat)
  refine ⟨blockStart r.bases (·.dofsPerCell.toNat) b t +
      ((r.bases.getD b default).1.faceDofs.getD f []).getD k 0,
    ((r.bases.getD b default).1.faceDofs.getD f []).getD k 0, ?_,
    Store.faceToCellIndex_of_lt hkS hfS, ?_⟩
  · rw [r.faceToCellIndex_blocked hp hf hjlt hbd]
    simp only [blockFaceCell, blockAt, hs, hoff, Store.faceToCellIndex_of_lt hkS hfS, bind,
      Except.bind, pure, Except.pure]
  · refine (r.systemToBaseIndex_blocked hp).2 ⟨(mem_blockPlaces _ _).2 ⟨hb, ht, ?_⟩, by simp⟩
    have := hS.faceDofs_lt f hfS k hk
    dsimp only
    omega

/-- A base of an interleaved composite is numbered object kind by object kind and fits a
machine word. -/
theorem base_of_interleaved (hp : p = .interleaved) {b : Nat} (hb : b < r.bases.length)
    (ht : 0 < (r.bases.getD b default).2) :
    (r.bases.getD b default).1.entityOrdered = true ∧
      (r.bases.getD b default).1.layout.cellPrefix (r.bases.getD b default).1.cell 4 < 2 ^ 63 := by
  have hx := getD_mem_of_lt default hb
  obtain ⟨hs, -, -⟩ := getD_blocksOf_blockIndex hb ht
  have hfit := r.mem_cellPrefix_lt_of_interleaved hwf hp (getD_mem_of_lt default (blockIndex_lt hb ht))
  rw [hs, ← (r.base_wellFormed hwf hb).2] at hfit
  exact ⟨((checkBases_eq_ok r.checkBases_eq).2 _ hx).2.2 hp, hfit⟩

/-- **Where a face dof of an interleaved composite lies.** A face dof placed in copy `t` of base
`b` at the base's `d`-th dof on face object `o` of kind `κ` is the composite's dof there, after the
dofs of the earlier copies on that object. -/
theorem exists_objectwise_of_faceSystemToBaseIndex (hp : p = .interleaved) {j : Int} {b t k : Nat}
    (hj : E.faceSystemToBaseIndex j = .ok ⟨b, t, k⟩) :
    b < r.bases.length ∧ t < (r.bases.getD b default).2 ∧
      ∃ κ < r.cell.dim, ∃ o < r.cell.objectsPerFace.getD κ 0,
        ∃ d < ((r.bases.getD b default).1.layout.countOf κ).toNat,
          (k : Int) = (r.bases.getD b default).1.layout.facePrefix r.cell κ +
            o * (r.bases.getD b default).1.layout.countOf κ + d ∧
          j = E.layout.facePrefix E.cell κ + o * E.layout.countOf κ +
            (blockStart r.bases (fun S => (S.layout.countOf κ).toNat) b t : Nat) + d := by
  obtain ⟨hj0, hjlt⟩ := Store.faceSystemToBaseIndex_lt hj
  have hnum := r.faceSystemToBaseIndex_numbering hwf
  obtain ⟨y, hy, hjy⟩ := hnum.mapsTo j hj0 hjlt
  rw [hj] at hjy
  cases hjy
  obtain ⟨hb, ht, hk⟩ := (mem_blockPlaces _ _).1 hy
  dsimp only at hb ht hk
  obtain ⟨hS, hcell⟩ := r.base_wellFormed hwf hb
  obtain ⟨-, hSfit⟩ := r.base_of_interleaved hwf hp hb (by omega)
  -- the base's face dof is the `d`-th dof on one object of the face
  obtain ⟨κ, hκ, o, ho, d, hd, hkInt⟩ := hS.exists_faceObject_dof hSfit (j := k) (by omega)
  rw [hcell] at hκ ho hkInt
  have hd : d < ((r.bases.getD b default).1.layout.countOf κ).toNat := by omega
  refine ⟨hb, ht, κ, hκ, o, ho, d, hd, hkInt, ?_⟩
  -- the composite's dof there has the same place, and places are numbered once
  have hplace := r.faceSystemToBaseIndex_interleaved hwf hp hκ ho hb ht hd
  have hEfit := r.layout_cellPrefix_lt_of_interleaved hwf hp
  have hEface := (r.layout_wf.1.exact hEfit).2.2.1 κ (by have := r.cell.dim_le; omega)
  have hSface : (r.bases.getD b default).1.layout.firstFaceOf κ =
      (r.bases.getD b default).1.layout.facePrefix r.cell κ := by
    rw [← hcell]
    exact (hS.layout_wf.exact (hcell ▸ hSfit)).2.2.1 κ (by have := r.cell.dim_le; omega)
  rw [r.layout_store, hEface, ← r.layout_store, hSface, ← hkInt, Int.toNat_natCast] at hplace
  rw [r.cell_store]
  exact hnum.injective _ _ _ hj hplace

/-- The copies before copy `t` of base `b` on one object, with a dof of that copy, are among the
dofs all blocks put on the object. -/
theorem blockStart_add_lt_countOf (hp : p = .interleaved) {κ b t d : Nat} (hκ : κ ≤ r.cell.dim)
    (hb : b < r.bases.length) (ht : t < (r.bases.getD b default).2)
    (hd : d < ((r.bases.getD b default).1.layout.countOf κ).toNat) :
    ((blockStart r.bases (fun S => (S.layout.countOf κ).toNat) b t + d : Nat) : Int) <
      E.layout.countOf κ := by
  obtain ⟨hs, -, -⟩ := getD_blocksOf_blockIndex hb ht
  have hle := sum_range_add_le
    (n := fun β => (((blocksOf r.bases).getD β default).store.layout.countOf κ).toNat)
    (blockIndex_lt hb ht)
  rw [sum_range_blocksOf hb ht (fun S => (S.layout.countOf κ).toNat), hs,
    map_range_getD (blocksOf r.bases) fun blk => (blk.store.layout.countOf κ).toNat] at hle
  rw [r.countOf_eq_kindTotal hwf hp hκ, kindTotal]
  omega

/-- In an interleaved composite a face dof of a copy of a base lies where the base puts it: both
put it on the same cell object, after the same copies. -/
theorem faceToCellIndex_place_interleaved (hp : p = .interleaved) {f : Nat}
    (hf : f < r.cell.facesPerCell) {j : Int} {x : BaseIndex} (hj : E.faceSystemToBaseIndex j = .ok x) :
    ∃ i k, E.faceToCellIndex j f = .ok i ∧
      (r.bases.getD x.base default).1.faceToCellIndex x.index f = .ok k ∧
      E.systemToBaseIndex i = .ok ⟨x.base, x.copy, k⟩ := by
  obtain ⟨b, t, k⟩ := x
  obtain ⟨hb, ht, κ, hκ, o, ho, d, hd, hk, rfl⟩ :=
    r.exists_objectwise_of_faceSystemToBaseIndex hwf hp hj
  dsimp only
  obtain ⟨hS, hcell⟩ := r.base_wellFormed hwf hb
  obtain ⟨hSeo, hSfit⟩ := r.base_of_interleaved hwf hp hb (by omega)
  obtain ⟨v, hv, hobj⟩ := r.cell.exists_faceObject hκ hf ho
  have hE := r.wellFormed hwf
  have hEeo : E.entityOrdered = true := by
    rw [r.entityOrdered_store, (systemTables_eq_ok r.tables_eq).2.2.2.2 (by rw [hp]; intro h; cases h)]
    rfl
  have hEfit : E.layout.cellPrefix E.cell 4 < 2 ^ 63 := by
    rw [r.layout_store, r.cell_store]
    exact r.layout_cellPrefix_lt_of_interleaved hwf hp
  have hsd := r.blockStart_add_lt_countOf hwf hp hκ.le hb ht hd
  set S := (r.bases.getD b default).1
  -- both number the dofs of face object `o` by cell object `v`
  have hEobj := hE.faceToCellIndex_objectwise hEeo hEfit (by rw [r.cell_store]; exact hκ)
    (by rw [r.cell_store]; exact ho) hsd (by rw [r.cell_store]; exact hf)
    (by rw [r.cell_store]; exact hobj)
  have hSobj := hS.faceToCellIndex_objectwise hSeo hSfit (by rw [hcell]; exact hκ)
    (by rw [hcell]; exact ho) (show (d : Int) < S.layout.countOf κ by omega) (by rw [hcell]; exact hf)
    (by rw [hcell]; exact hobj)
  have hsys := r.systemToBaseIndex_interleaved hwf hp hκ.le hv hb ht hd
  have hEfirst := (r.layout_wf.1.exact (r.layout_cellPrefix_lt_of_interleaved hwf hp)).1 κ
    (by have := r.cell.dim_le; omega)
  have hSfirst := (hS.layout_wf.exact hSfit).1 κ (by have := r.cell.dim_le; omega)
  have hn := hS.layout_wf.count_nonneg κ
  have hN := hE.layout_wf.count_nonneg κ
  have hEpre := DofLayout.cellPrefix_nonneg hE.layout_wf.count_nonneg (c := E.cell) κ
  rw [hcell] at hSobj hSfirst
  rw [← r.layout_store, ← r.cell_store] at hEfirst
  rw [hEfirst, hSfirst] at hsys
  refine ⟨(E.layout.cellPrefix E.cell κ + v * E.layout.countOf κ +
      ((blockStart r.bases (fun S => (S.layout.countOf κ).toNat) b t + d : Nat) : Int)).toNat,
    (S.layout.cellPrefix r.cell κ + v * S.layout.countOf κ + d).toNat, ?_, ?_, ?_⟩
  · rw [← hEobj]
    push_cast
    rw [Int.add_assoc]
  · rw [hk]
    exact hSobj
  · have hvN := Int.mul_nonneg (Int.natCast_nonneg v) hN
    rw [Int.toNat_of_nonneg (by omega), ← hsys]
    push_cast
    rw [Int.add_assoc _ _ (d : Int)]

/-- **A composite's face dofs lie where its bases put them**, in both packings. -/
theorem faceToCellIndex_place {f : Nat} (hf : f < r.cell.facesPerCell) {j : Int} {x : BaseIndex}
    (hj : E.faceSystemToBaseIndex j = .ok x) :
    ∃ i k, E.faceToCellIndex j f = .ok i ∧
      (r.bases.getD x.base default).1.faceToCellIndex x.index f = .ok k ∧
      E.systemToBaseIndex i = .ok ⟨x.base, x.copy, k⟩ := by
  rcases r.packing_eq with hp | hp
  · exact r.faceToCellIndex_place_interleaved hwf hp hf hj
  · exact r.faceToCellIndex_place_blocked hwf hp hf hj

/-- Distinct face dofs of a composite lie on distinct cell dofs of a face when those of every base
do. -/
theorem faceInjective {f : Nat} (hf : f < r.cell.facesPerCell)
    (hbases : ∀ y ∈ r.bases, y.1.FaceInjective f) : E.FaceInjective f := by
  intro j j' i hj hj'
  have hnum := r.faceSystemToBaseIndex_numbering hwf
  obtain ⟨hj0, hjlt, -⟩ := Store.faceToCellIndex_eq_ok.1 hj
  obtain ⟨hj0', hjlt', -⟩ := Store.faceToCellIndex_eq_ok.1 hj'
  obtain ⟨x, hx, hjx⟩ := hnum.mapsTo j hj0 hjlt
  obtain ⟨x', -, hjx'⟩ := hnum.mapsTo j' hj0' hjlt'
  obtain ⟨i₁, k, hi₁, hk, hsys⟩ := r.faceToCellIndex_place hwf hf hjx
  obtain ⟨i₂, k', hi₂, hk', hsys'⟩ := r.faceToCellIndex_place hwf hf hjx'
  rw [hj, Except.ok.injEq] at hi₁
  rw [hj', Except.ok.injEq] at hi₂
  subst hi₁ hi₂
  -- one cell dof has one place, so both face dofs come from one copy of one base
  rw [hsys, Except.ok.injEq, BaseIndex.mk.injEq] at hsys'
  obtain ⟨hb, ht, rfl⟩ := hsys'
  rw [← hb] at hk'
  have hbx := ((mem_blockPlaces _ _).1 hx).1
  have hidx := hbases _ (getD_mem_of_lt default hbx) _ _ _ hk hk'
  have hxx : x = x' := by
    obtain ⟨b, t, k⟩ := x
    obtain ⟨b', t', k'⟩ := x'
    simp_all
  exact hnum.injective j j' x hjx (hxx ▸ hjx')

/-- A shape function of a composite has support on a face exactly when its place in its base
does. -/
theorem hasSupportOnFace_iff {f : Nat} (hf : f < r.cell.facesPerCell) {i : Int} :
    E.hasSupportOnFace i f = .ok true ↔ ∃ x, E.systemToBaseIndex i = .ok x ∧
      (r.bases.getD x.base default).1.hasSupportOnFace x.index f = .ok true := by
  have hE := r.wellFormed hwf
  have hcells := r.systemToBaseIndex_numbering hwf
  have hfaces := r.faceSystemToBaseIndex_numbering hwf
  rw [hE.hasSupportOnFace_iff]
  constructor
  · rintro ⟨hi0, j, hj⟩
    obtain ⟨hj0, hjlt, -⟩ := Store.faceToCellIndex_eq_ok.1 hj
    obtain ⟨x, hx, hjx⟩ := hfaces.mapsTo j hj0 hjlt
    obtain ⟨i₁, k, hi₁, hk, hsys⟩ := r.faceToCellIndex_place hwf hf hjx
    rw [hj, Except.ok.injEq] at hi₁
    subst hi₁
    obtain ⟨hS, -⟩ := r.base_wellFormed hwf ((mem_blockPlaces _ _).1 hx).1
    refine ⟨_, by rwa [Int.toNat_of_nonneg hi0] at hsys, ?_⟩
    exact hS.hasSupportOnFace_iff.2 ⟨Int.natCast_nonneg k, _, by rwa [Int.toNat_natCast]⟩
  · rintro ⟨⟨b, t, k⟩, hix, hsupp⟩
    dsimp only at hsupp
    obtain ⟨hi0, hilt⟩ := Store.systemToBaseIndex_lt hix
    obtain ⟨y, hy, hiy⟩ := hcells.mapsTo i hi0 hilt
    rw [hix, Except.ok.injEq] at hiy
    subst hiy
    obtain ⟨hb, ht, -⟩ := (mem_blockPlaces _ _).1 hy
    dsimp only at hb ht
    obtain ⟨hS, -⟩ := r.base_wellFormed hwf hb
    obtain ⟨-, k₀, hk₀⟩ := hS.hasSupportOnFace_iff.1 hsupp
    rw [Int.toNat_natCast] at hk₀
    obtain ⟨hk₀0, hk₀lt, -⟩ := Store.faceToCellIndex_eq_ok.1 hk₀
    -- the base's face dof is a face dof of the composite, which lies on this shape function
    obtain ⟨j, -, -, hj⟩ := hfaces.surjective ⟨b, t, k₀.toNat⟩
      ((mem_blockPlaces _ _).2 ⟨hb, ht, by dsimp only; omega⟩)
    obtain ⟨i₁, k₁, hi₁, hk₁, hsys⟩ := r.faceToCellIndex_place hwf hf hj
    dsimp only at hk₁ hsys
    rw [Int.toNat_of_nonneg hk₀0, hk₀, Except.ok.injEq] at hk₁
    subst hk₁
    have hii := hcells.injective _ _ _ hsys hix
    refine ⟨hi0, j, ?_⟩
    rw [hi₁, ← hii, Int.toNat_natCast]

end CompositeRun

/-- **The faces of a composite are those of its bases.** Take a composite of built bases and a
face `f`. A face dof placed at face dof `k` of a copy of a base lies on the cell dof placed, in the
same copy, at the base's cell dof of `k` on `f`. So distinct face dofs lie on distinct cell dofs
of `f` when they do in every base, and a shape function has support on `f` exactly when its place
in its base does. -/
theorem composite_faces {p : Packing} {bases : List (Store × Nat)} {E : Store}
    (h : Store.composite p (asSpecs bases) = .ok E) (hbuilt : ∀ x ∈ bases, x.1.Built) :
    ∀ f < E.cell.facesPerCell,
      (∀ j x, E.faceSystemToBaseIndex j = .ok x → ∃ i k, E.faceToCellIndex j f = .ok i ∧
        (bases.getD x.base default).1.faceToCellIndex x.index f = .ok k ∧
        E.systemToBaseIndex i = .ok ⟨x.base, x.copy, k⟩) ∧
      ((∀ y ∈ bases, y.1.FaceInjective f) → E.FaceInjective f) ∧
      ∀ i, E.hasSupportOnFace i f = .ok true ↔ ∃ x, E.systemToBaseIndex i = .ok x ∧
        (bases.getD x.base default).1.hasSupportOnFace x.index f = .ok true := by
  obtain ⟨r⟩ := Store.composite_eq_ok h
  -- the run checked exactly the given bases
  have hb : bases = r.bases := asSpecs_injective (checkBases_eq_ok r.checkBases_eq).1
  have hwf : ∀ x ∈ r.bases, x.1.WellFormed := fun x hx => (hbuilt x (hb ▸ hx)).wellFormed
  intro f hf
  rw [r.cell_store] at hf
  rw [hb]
  exact ⟨fun j x hj => r.faceToCellIndex_place hwf hf hj, r.faceInjective hwf hf,
    fun i => r.hasSupportOnFace_iff hwf hf⟩

theorem linearSegmentPair_faces :
    Store.composite .blocked (asSpecs [(Store.linearSegment, 2)]) = .ok linearSegmentPair ∧
      (∀ x ∈ [(Store.linearSegment, 2)], x.1.Built) ∧
      ∀ f < linearSegmentPair.cell.facesPerCell,
        (∀ j x, linearSegmentPair.faceSystemToBaseIndex j = .ok x → ∃ i k,
          linearSegmentPair.faceToCellIndex j f = .ok i ∧
          ([(Store.linearSegment, 2)].getD x.base default).1.faceToCellIndex x.index f = .ok k ∧
          linearSegmentPair.systemToBaseIndex i = .ok ⟨x.base, x.copy, k⟩) ∧
        ((∀ y ∈ [(Store.linearSegment, 2)], y.1.FaceInjective f) →
          linearSegmentPair.FaceInjective f) ∧
        ∀ i, linearSegmentPair.hasSupportOnFace i f = .ok true ↔
          ∃ x, linearSegmentPair.systemToBaseIndex i = .ok x ∧
            ([(Store.linearSegment, 2)].getD x.base default).1.hasSupportOnFace x.index f = .ok true :=
  ⟨linearSegmentPair_eq, linearSegmentPair_bases_built,
    composite_faces linearSegmentPair_eq linearSegmentPair_bases_built⟩

end FiniteElements.Element
