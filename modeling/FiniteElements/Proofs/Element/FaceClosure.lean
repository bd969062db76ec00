import FiniteElements.Proofs.Element.SupportPoints

/-!
# The closure of a face

A simple element takes its face table from the reference cell: the dofs on an object of a face
are those on the cell object that face object is. When the layout's counts fit a machine word,
its offsets are exact and this numbering holds together face by face. The face table is
injective (`Store.WellFormed.faceInjective`) and its values are cell dofs. They are exactly the
dofs on the closure of the face (`Store.WellFormed.faceToCellIndex_iff_onFaceClosure`): the
blocks of the cell vertices and lines that the face's vertices and lines are, and in 3D the
block of the face's own quadrilateral (`DofLayout.OnFaceClosure`). So as many cell dofs have
support on a face as the face has dofs (`Store.WellFormed.ncard_hasSupportOnFace`).

The face numbering divides by the dofs per vertex and per line. On a layout of counts it never
divides by zero, whatever the counts. With no vertex dofs the first face line dof is `0`, and
with no line dofs the first face quadrilateral dof is where the line dofs start. So a branch that
would divide by zero is never taken (`geometricFaceDof_ne_divisionByZero`).

## Main definitions

* `FiniteElements.Element.DofLayout.OnFaceClosure`

## Main results

* `Hypercube.faceObject_inj`, `DofLayout.cellPrefix_objectwise_inj`
* `geometricFaceDof_ne_divisionByZero`
* `Store.WellFormed.faceInjective`, `Store.WellFormed.faceToCellIndex_iff_onFaceClosure`,
  `Store.WellFormed.ncard_hasSupportOnFace`
* `faceDofs_onFaceClosure`
-/

namespace FiniteElements.Cell

set_option autoImplicit false

/-- **Distinct objects of a face are distinct objects of the cell.** -/
theorem Hypercube.faceObject_inj (c : Hypercube) {κ f o o' v : Nat} (hκ : κ < c.dim)
    (hf : f < c.facesPerCell) (ho : o < c.objectsPerFace.getD κ 0)
    (ho' : o' < c.objectsPerFace.getD κ 0) (h : c.faceObject κ f o = .ok v)
    (h' : c.faceObject κ f o' = .ok v) : o = o' := by
  -- as for `exists_faceObject`, the reference cells are small enough to check whole
  have key : ∀ κ, κ < c.dim → ∀ f, f < c.facesPerCell → ∀ o, o < c.objectsPerFace.getD κ 0 →
      ∀ o', o' < c.objectsPerFace.getD κ 0 →
        (c.faceObject κ f o).toOption = (c.faceObject κ f o').toOption → o = o' := by
    cases c <;> decide
  exact key κ hκ f hf o ho o' ho' (by rw [h, h'])

end FiniteElements.Cell

namespace FiniteElements.Element

set_option autoImplicit false

open FiniteElements.Cell FiniteElements.Numeric

/-- Entry `d` of part `o`, among parts of `n` entries each, gives back its part and its place. -/
theorem mul_add_inj {n o o' d d' : Nat} (hd : d < n) (hd' : d' < n)
    (h : o * n + d = o' * n + d') : o = o' ∧ d = d' := by
  have hn : 0 < n := by omega
  have h₁ := (Nat.div_mod_unique hn).2 ⟨show d + n * o = o * n + d by ring, hd⟩
  have h₂ := (Nat.div_mod_unique hn).2 ⟨show d' + n * o' = o' * n + d' by ring, hd'⟩
  rw [h] at h₁
  exact ⟨h₁.1.symm.trans h₂.1, h₁.2.symm.trans h₂.2⟩

namespace DofLayout

/-- Cell dof `i` lies on the closure of face `f`: it is dof `e` of the cell object `v` that an
object `o` of kind `κ` of the face is, in the block `[first + v·n, first + (v + 1)·n)` of that
object, where the kind's dofs start at `first` with `n` dofs per object. -/
def OnFaceClosure (fd : DofLayout) (c : Hypercube) (f : Nat) (i : Int) : Prop :=
  ∃ κ < c.dim, ∃ o < c.objectsPerFace.getD κ 0, ∃ v, c.faceObject κ f o = .ok v ∧
    ∃ e : Nat, (e : Int) < fd.countOf κ ∧ i = fd.firstOf κ + v * fd.countOf κ + e

/-- **Dofs on cell objects are told apart by kind, object and place.** With counts that are not
negative, dof `e` of object `v` of kind `κ`, in the cell's object-by-object order, is no other
such dof. -/
theorem cellPrefix_objectwise_inj {fd : DofLayout} {c : Hypercube} (hn : ∀ k, 0 ≤ fd.countOf k)
    {κ κ' v v' e e' : Nat} (hv : v < c.objectsPerCell.getD κ 0)
    (hv' : v' < c.objectsPerCell.getD κ' 0) (he : (e : Int) < fd.countOf κ)
    (he' : (e' : Int) < fd.countOf κ')
    (h : fd.cellPrefix c κ + v * fd.countOf κ + e = fd.cellPrefix c κ' + v' * fd.countOf κ' + e') :
    κ = κ' ∧ v = v' ∧ e = e' := by
  let n : Nat → Nat := fun k => (fd.countOf k).toNat
  have hcast : ∀ k, fd.countOf k = (n k : Int) := fun k => (Int.toNat_of_nonneg (hn k)).symm
  rw [cellPrefix_eq_objectOffset hn, cellPrefix_eq_objectOffset hn, hcast κ, hcast κ'] at h
  rw [hcast] at he he'
  have hnat : objectOffset (c.objectsPerCell.getD · 0) n κ + (v * n κ + e) =
      objectOffset (c.objectsPerCell.getD · 0) n κ' + (v' * n κ' + e') := by
    zify
    linarith
  -- the kinds come first, then the objects of a kind, then the dofs of an object
  obtain ⟨rfl, hrest⟩ := eq_of_sum_range_add (n := fun k => c.objectsPerCell.getD k 0 * n k)
    (mul_add_lt_mul hv (by exact_mod_cast he)) (mul_add_lt_mul hv' (by exact_mod_cast he')) hnat
  obtain ⟨rfl, rfl⟩ := mul_add_inj (by exact_mod_cast he) (by exact_mod_cast he') hrest
  exact ⟨rfl, rfl, rfl⟩

end DofLayout

theorem truncDiv_of_ne_zero {a b : Int} (hb : b ≠ 0) : truncDiv a b = .ok (a.tdiv b) := by
  simp [truncDiv, hb]

theorem truncMod_of_ne_zero {a b : Int} (hb : b ≠ 0) : truncMod a b = .ok (a.tmod b) := by
  simp [truncMod, hb]

/-- **The face numbering never divides by zero** on a layout of counts, at any face dof `j ≥ 0`
and whatever the counts. It divides by the dofs per vertex only for a `j` before the first face
line dof, which is `0` when there are none; and by the dofs per line only for a `j` between the
first face line dof and the first face quadrilateral dof, which coincide when there are none. -/
theorem geometricFaceDof_ne_divisionByZero {fd : DofLayout} {c : Hypercube} (hw : fd.Wf c)
    {j : Int} (hj : 0 ≤ j) (face : Int) :
    geometricFaceDof fd c j face ≠ .error (.aborted (.fault .divisionByZero)) := by
  have hFL : fd.firstFaceLineIndex =
      wrapWord ((c.objectsPerFace.getD 0 0 : Int) * fd.dofsPerVertex) := by
    rw [show fd.firstFaceLineIndex = fd.firstFaceOf 1 from rfl, hw.firstFaceOf_eq 1 (by omega)]
    simp [DofLayout.facePrefix, DofLayout.countOf, DofLayout.allCounts]
  have hFQ : fd.firstFaceQuadIndex =
      wrapWord (fd.facePrefix c 1 + (c.objectsPerFace.getD 1 0 : Int) * fd.dofsPerLine) := by
    rw [show fd.firstFaceQuadIndex = fd.firstFaceOf 2 from rfl, hw.firstFaceOf_eq 2 (by omega),
      fd.facePrefix_succ c 1]
    rfl
  have hFL' : fd.firstFaceLineIndex = wrapWord (fd.facePrefix c 1) := hw.firstFaceOf_eq 1 (by omega)
  unfold geometricFaceDof
  split_ifs with hv hl
  · -- a face dof before the first face line dof: there are vertex dofs
    have hv0 : fd.dofsPerVertex ≠ 0 := by
      intro h0
      rw [h0, Int.mul_zero, wrapWord_zero] at hFL
      omega
    rw [truncDiv_of_ne_zero hv0, truncMod_of_ne_zero hv0]
    simp only [liftFault, liftCell, Except.mapError, bind, Except.bind, pure, Except.pure]
    cases c.faceVertex face (j.tdiv fd.dofsPerVertex) <;> simp
  · -- a face dof among the face line dofs: there are line dofs
    have hl0 : fd.dofsPerLine ≠ 0 := by
      intro h0
      rw [h0, Int.mul_zero, Int.add_zero, ← hFL'] at hFQ
      omega
    dsimp only
    rw [truncDiv_of_ne_zero hl0, truncMod_of_ne_zero hl0]
    simp only [liftFault, liftCell, Except.mapError, bind, Except.bind, pure, Except.pure]
    cases c.faceLine face ((j - fd.firstFaceLineIndex).tdiv fd.dofsPerLine) <;> simp
  · simp [pure, Except.pure]

namespace Store

namespace WellFormed

section Rows

variable {s : Store} (hs : s.WellFormed)
include hs

/-- Shape function `i` has support on face `f` exactly when the face's row of the face table
lists it. -/
theorem hasSupportOnFace_iff_mem {f : Nat} (hf : f < s.cell.facesPerCell) {i : Nat} :
    s.hasSupportOnFace i f = .ok true ↔ i ∈ s.faceDofs.getD f [] := by
  rw [hasSupportOnFace_eq_ok]
  constructor
  · rintro ⟨-, -, -, -, hmem⟩
    exact List.contains_iff_mem.1 hmem.symm
  · intro hmem
    obtain ⟨j, hj, rfl⟩ := List.getElem_of_mem hmem
    have hrow := hs.faceDofs_row f hf
    have hlt := hs.faceDofs_lt f hf j (by omega)
    rw [List.getD_eq_getElem _ _ hj] at hlt
    refine ⟨Int.natCast_nonneg _, hlt, Int.natCast_nonneg f, by exact_mod_cast hf, ?_⟩
    simp

/-- Every face dof of a face lies on a cell dof. -/
theorem faceToCellIndex_lt {f : Nat} (hf : f < s.cell.facesPerCell) {j : Nat}
    (hj : (j : Int) < s.layout.dofsPerFace) :
    ∃ i : Nat, s.faceToCellIndex j f = .ok i ∧ (i : Int) < s.dofsPerCell :=
  ⟨_, faceToCellIndex_of_lt hj hf, hs.faceDofs_lt f hf j (by omega)⟩

theorem lt_of_faceToCellIndex {j f i : Nat} (h : s.faceToCellIndex j f = .ok i) :
    (i : Int) < s.dofsPerCell := by
  obtain ⟨-, hj, -, hf, -⟩ := faceToCellIndex_eq_ok.1 h
  obtain ⟨i', hi', hlt⟩ := hs.faceToCellIndex_lt (show f < s.cell.facesPerCell by omega) hj
  obtain rfl : i' = i := Except.ok.inj (hi'.symm.trans h)
  exact hlt

/-- A face whose dofs lie on distinct cell dofs has a row without repeats. -/
theorem nodup_faceRow {f : Nat} (hf : f < s.cell.facesPerCell) (hinj : s.FaceInjective f) :
    (s.faceDofs.getD f []).Nodup := by
  rw [List.nodup_iff_injective_get]
  intro a b hab
  have hrow := hs.faceDofs_row f hf
  have hentry (a : Fin (s.faceDofs.getD f []).length) :
      s.faceToCellIndex a f = .ok ((s.faceDofs.getD f []).get a) := by
    rw [faceToCellIndex_of_lt (by omega) hf, List.getD_eq_getElem _ _ a.2]
    rfl
  have := hinj a b _ (hentry a) (hab ▸ hentry b)
  exact Fin.ext (by exact_mod_cast this)

/-- **As many shape functions have support on a face as the face has dofs**, when its dofs lie
on distinct cell dofs. -/
theorem ncard_hasSupportOnFace {f : Nat} (hf : f < s.cell.facesPerCell)
    (hinj : s.FaceInjective f) :
    {i : Nat | s.hasSupportOnFace i f = .ok true}.ncard = s.layout.dofsPerFace.toNat := by
  have hset : {i : Nat | s.hasSupportOnFace i f = .ok true} = ↑(s.faceDofs.getD f []).toFinset := by
    ext i
    simp [hs.hasSupportOnFace_iff_mem hf]
  rw [hset, Set.ncard_coe_finset, List.toFinset_card_of_nodup (hs.nodup_faceRow hf hinj),
    hs.faceDofs_row f hf]

end Rows

section Objectwise

variable {s : Store} (hs : s.WellFormed) (heo : s.entityOrdered = true)
  (hfit : s.layout.cellPrefix s.cell 4 < 2 ^ 63)
include hs heo hfit

/-- **A face dof and its cell dof, object by object.** Face dof `j` of face `f` is dof `e` of an
object `o` of the face, and its cell dof is dof `e` of the cell object `v` that `o` is. -/
theorem exists_objectwise_of_faceToCellIndex {f : Nat} (hf : f < s.cell.facesPerCell) {j : Int}
    {i : Nat} (h : s.faceToCellIndex j f = .ok i) :
    ∃ κ < s.cell.dim, ∃ o < s.cell.objectsPerFace.getD κ 0, ∃ v < s.cell.objectsPerCell.getD κ 0,
      s.cell.faceObject κ f o = .ok v ∧ ∃ e : Nat, (e : Int) < s.layout.countOf κ ∧
        j = s.layout.facePrefix s.cell κ + o * s.layout.countOf κ + e ∧
        (i : Int) = s.layout.cellPrefix s.cell κ + v * s.layout.countOf κ + e := by
  obtain ⟨hj0, hjlt, -, -, -⟩ := faceToCellIndex_eq_ok.1 h
  obtain ⟨κ, hκ, o, ho, e, he, hjeq⟩ := hs.exists_faceObject_dof hfit (j := j.toNat) (by omega)
  obtain ⟨v, hv, hobj⟩ := s.cell.exists_faceObject hκ hf ho
  have hcell := hs.faceToCellIndex_objectwise heo hfit hκ ho he hf hobj
  rw [← hjeq, Int.toNat_of_nonneg hj0, h, Except.ok.injEq] at hcell
  have hnn : 0 ≤ s.layout.cellPrefix s.cell κ + v * s.layout.countOf κ + e := by
    have := DofLayout.cellPrefix_nonneg hs.layout_wf.count_nonneg (c := s.cell) κ
    have := Int.mul_nonneg (Int.natCast_nonneg v) (hs.layout_wf.count_nonneg κ)
    omega
  refine ⟨κ, hκ, o, ho, v, hv, hobj, e, he, by omega, ?_⟩
  rw [hcell, Int.toNat_of_nonneg hnn]

/-- **Distinct face dofs of a face lie on distinct cell dofs.** -/
theorem faceInjective {f : Nat} (hf : f < s.cell.facesPerCell) : s.FaceInjective f := by
  intro j j' i h h'
  obtain ⟨κ, hκ, o, ho, v, hv, hobj, e, he, rfl, hi⟩ :=
    hs.exists_objectwise_of_faceToCellIndex heo hfit hf h
  obtain ⟨κ', -, o', ho', v', hv', hobj', e', he', rfl, hi'⟩ :=
    hs.exists_objectwise_of_faceToCellIndex heo hfit hf h'
  -- the cell dof gives back the cell object and the place on it, and the cell object the face
  -- object
  obtain ⟨rfl, rfl, rfl⟩ :=
    DofLayout.cellPrefix_objectwise_inj hs.layout_wf.count_nonneg hv hv' he he' (hi.symm.trans hi')
  obtain rfl := s.cell.faceObject_inj hκ hf ho ho' hobj hobj'
  rfl

/-- **The cell dofs of a face are the dofs on its closure.** -/
theorem faceToCellIndex_iff_onFaceClosure {f : Nat} (hf : f < s.cell.facesPerCell) {i : Nat} :
    (∃ j, s.faceToCellIndex j f = .ok i) ↔ s.layout.OnFaceClosure s.cell f i := by
  have hfirst := (hs.layout_wf.exact hfit).1
  have hdim : s.cell.dim ≤ 3 := by cases s.cell <;> simp [Hypercube.dim]
  constructor
  · rintro ⟨j, h⟩
    obtain ⟨κ, hκ, o, ho, v, -, hobj, e, he, -, hi⟩ :=
      hs.exists_objectwise_of_faceToCellIndex heo hfit hf h
    exact ⟨κ, hκ, o, ho, v, hobj, e, he, by rw [hfirst κ (by omega)]; exact hi⟩
  · rintro ⟨κ, hκ, o, ho, v, hobj, e, he, hi⟩
    refine ⟨_, (hs.faceToCellIndex_objectwise heo hfit hκ ho he hf hobj).trans ?_⟩
    rw [← hfirst κ (by omega), ← hi, Int.toNat_natCast]

end Objectwise

end WellFormed

end Store

/-- **The face dofs of a simple element lie on the closure of their face.** On a layout of counts
the face numbering never divides by zero, whatever the counts. When the counts fit a machine
word, every face of the element built on it has its dofs on distinct cell dofs, exactly the dofs
on the face's closure, so that as many cell dofs have support on the face as it has dofs. -/
theorem faceDofs_onFaceClosure {dim degree components : Int} {counts : List Int} {d : Definition}
    (hfd : DofLayout.ofCounts? dim counts components degree = .ok d.layout) :
    (∀ c, Hypercube.ofDim? dim = .ok c → ∀ j face : Int, 0 ≤ j →
      geometricFaceDof d.layout c j face ≠ .error (.aborted (.fault .divisionByZero))) ∧
    ∀ s, Store.ofDefinition d = .ok s → s.layout.cellPrefix s.cell 4 < 2 ^ 63 →
      ∀ f < s.cell.facesPerCell, s.FaceInjective f ∧
        (∀ j : Nat, (j : Int) < s.layout.dofsPerFace →
          ∃ i : Nat, s.faceToCellIndex j f = .ok i ∧ (i : Int) < s.dofsPerCell) ∧
        (∀ i : Nat, (∃ j, s.faceToCellIndex j f = .ok i) ↔ s.layout.OnFaceClosure s.cell f i) ∧
        {i : Nat | s.hasSupportOnFace i f = .ok true}.ncard = s.layout.dofsPerFace.toNat := by
  obtain ⟨c, hw, hdim, -⟩ := DofLayout.wf_of_ofCounts? hfd
  have hcell : Hypercube.ofDim? dim = .ok c := hdim ▸ hw.cell
  refine ⟨fun c' hc' j face hj => ?_, fun s hs hfit f hf => ?_⟩
  · obtain rfl : c' = c := Except.ok.inj (hc'.symm.trans hcell)
    exact geometricFaceDof_ne_divisionByZero hw hj face
  · have hfd' : DofLayout.ofCounts? c.dim counts components degree = .ok d.layout := by
      rw [Hypercube.dim_of_ofDim? hcell]
      exact hfd
    obtain ⟨hwf, -, heo, -⟩ := Store.ofDefinition_of_counts hfd' hs
    have hinj := hwf.faceInjective heo hfit hf
    exact ⟨hinj, fun j hj => hwf.faceToCellIndex_lt hf hj,
      fun i => hwf.faceToCellIndex_iff_onFaceClosure heo hfit hf,
      hwf.ncard_hasSupportOnFace hf hinj⟩

/-- The element on the cube with one dof on every vertex, line and face and one inside. -/
def cubeAllObjectsDefinition : Definition :=
  { name := "Custom", layout := okValue (DofLayout.ofCounts? 3 [1, 1, 1, 1] 1 2)
    additive := List.replicate 27 false, masks := List.replicate 27 ⟨[true]⟩ }

def cubeAllObjects : Store := okValue (Store.ofDefinition cubeAllObjectsDefinition)

/-- On the top face of the cube element with one dof per object, the nine face dofs lie on nine
distinct cell dofs, and nine cell dofs have support on it. -/
theorem cubeAllObjects_faceClosure :
    DofLayout.ofCounts? 3 [1, 1, 1, 1] 1 2 = .ok cubeAllObjectsDefinition.layout ∧
      Store.ofDefinition cubeAllObjectsDefinition = .ok cubeAllObjects ∧
      cubeAllObjects.layout.cellPrefix cubeAllObjects.cell 4 < 2 ^ 63 ∧
      cubeAllObjects.FaceInjective 5 ∧
      {i : Nat | cubeAllObjects.hasSupportOnFace i 5 = .ok true}.ncard = 9 := by
  have hfd : DofLayout.ofCounts? 3 [1, 1, 1, 1] 1 2 = .ok cubeAllObjectsDefinition.layout :=
    eq_ok_okValue (by decide)
  have hs : Store.ofDefinition cubeAllObjectsDefinition = .ok cubeAllObjects :=
    eq_ok_okValue (by decide)
  have hfit : cubeAllObjects.layout.cellPrefix cubeAllObjects.cell 4 < 2 ^ 63 := by decide
  obtain ⟨hinj, -, -, hcard⟩ := (faceDofs_onFaceClosure hfd).2 _ hs hfit 5 (by decide)
  exact ⟨hfd, hs, hfit, hinj, hcard.trans (by decide)⟩

end FiniteElements.Element
