import FiniteElements.Proofs.Element.WellFormed

/-!
# The face dofs of an element, face by face

The face table of a store gives, face by face, the cell dof of every face dof. Read as a map it
is `Store.faceToCellIndex` (`Store.faceToCellIndex_eq_ok`), and a shape function has support on a
face exactly when it is the cell dof of one of the face's dofs
(`Store.WellFormed.hasSupportOnFace_iff`).

An element numbered object kind by object kind takes its face table from the reference cell
(`geometricFaceDof`). Every object of a face is an object of the cell: a face vertex a vertex, a
face line a line, the face's quadrilateral the face itself (`Hypercube.faceObject`). The dofs of
a face vertex or face line are those of the cell vertex or line it is, as long as the face's
vertex dofs and line dofs keep to their own ranges (`geometricFaceDof_vertex`,
`geometricFaceDof_line`). When the layout's offsets are exact, the `e`-th dof on face object `o`
of kind `κ` is the `e`-th dof on the cell object that face object is
(`geometricFaceDof_objectwise`, `Store.WellFormed.faceToCellIndex_objectwise`).

## Main definitions

* `FiniteElements.Cell.Hypercube.faceObject`: the cell object an object of a face is.
* `FiniteElements.Element.Store.FaceInjective`: distinct face dofs of a face are distinct cell
  dofs.

## Main results

* `Hypercube.exists_faceObject`
* `geometricFaceDof_vertex`, `geometricFaceDof_line`, `geometricFaceDof_objectwise`
* `Store.faceToCellIndex_eq_ok`, `Store.hasSupportOnFace_eq_ok`
* `Store.WellFormed.hasSupportOnFace_iff`, `Store.WellFormed.faceToCellIndex_objectwise`
-/

namespace FiniteElements.Cell

set_option autoImplicit false

/-- The cell object that object `o` of kind `κ` of face `face` is: a vertex of the cell for a face
vertex, a line for a face line, and the face for its quadrilateral. -/
def Hypercube.faceObject (c : Hypercube) (κ face o : Nat) : Except CellError Nat :=
  match κ with
  | 0 => c.faceVertex face o
  | 1 => c.faceLine face o
  | _ => c.check .face face c.facesPerCell

theorem toOption_eq_some {ε α : Type} {x : Except ε α} {a : α} :
    x.toOption = some a ↔ x = .ok a := by
  cases x <;> simp [Except.toOption]

/-- **Every object of a face is an object of the cell**, of the same kind. -/
theorem Hypercube.exists_faceObject (c : Hypercube) {κ f o : Nat} (hκ : κ < c.dim)
    (hf : f < c.facesPerCell) (ho : o < c.objectsPerFace.getD κ 0) :
    ∃ v < c.objectsPerCell.getD κ 0, c.faceObject κ f o = .ok v := by
  -- the three reference cells have few faces and face objects: check them all
  have key : ∀ κ, κ < c.dim → ∀ f, f < c.facesPerCell → ∀ o, o < c.objectsPerFace.getD κ 0 →
      ∃ v < c.objectsPerCell.getD κ 0, (c.faceObject κ f o).toOption = some v := by
    cases c <;> decide
  obtain ⟨v, hv, h⟩ := key κ hκ f hf o ho
  exact ⟨v, hv, toOption_eq_some.1 h⟩

end FiniteElements.Cell

namespace FiniteElements.Element

set_option autoImplicit false

open FiniteElements.Cell

/-- Dof `e` of object `o`, among objects of `n` dofs each, is found again by truncated division. -/
theorem truncDiv_mul_add {n o e : Int} (ho : 0 ≤ o) (he : 0 ≤ e) (hn : e < n) :
    truncDiv (o * n + e) n = .ok o ∧ truncMod (o * n + e) n = .ok e := by
  have hnz : (n == 0) = false := by simp; omega
  have hnonneg : 0 ≤ o * n + e := by
    have := Int.mul_nonneg ho (by omega : (0 : Int) ≤ n)
    omega
  obtain ⟨hq, hr⟩ := (Int.ediv_emod_unique (a := o * n + e) (by omega : 0 < n)).2
    ⟨by rw [Int.mul_comm n o, Int.add_comm], he, hn⟩
  simp only [truncDiv, truncMod, hnz, Bool.false_eq_true, if_false,
    Int.tdiv_eq_ediv_of_nonneg hnonneg, Int.tmod_eq_emod_of_nonneg hnonneg, hq, hr, and_self]

/-- The dofs of object `m` end before those of object `x > m`. -/
theorem mul_add_le_mul {m : Nat} {n x : Int} (hm : (m : Int) < x) (hn : 0 ≤ n) :
    m * n + n ≤ x * n := by
  have := Int.mul_le_mul_of_nonneg_right (show (m : Int) + 1 ≤ x by omega) hn
  rwa [Int.add_mul, Int.one_mul] at this

/-- The `e`-th dof on face vertex `o` is the `e`-th dof on the cell vertex it is, while the face
vertex dofs come first. -/
theorem geometricFaceDof_vertex {fd : DofLayout} {c : Hypercube} {o e f v : Nat}
    (hFL : (c.objectsPerFace.getD 0 0 : Int) * fd.dofsPerVertex ≤ fd.firstFaceLineIndex)
    (ho : o < c.objectsPerFace.getD 0 0) (he : (e : Int) < fd.dofsPerVertex)
    (hv : c.faceObject 0 f o = .ok v) :
    geometricFaceDof fd c (o * fd.dofsPerVertex + e) f = .ok (v * fd.dofsPerVertex + e) := by
  have hlt : (o : Int) * fd.dofsPerVertex + e < fd.firstFaceLineIndex := by
    have := mul_add_le_mul (n := fd.dofsPerVertex)
      (show (o : Int) < c.objectsPerFace.getD 0 0 by exact_mod_cast ho) (by omega)
    omega
  obtain ⟨hdiv, hmod⟩ := truncDiv_mul_add (Int.natCast_nonneg o) (Int.natCast_nonneg e) he
  simp only [Hypercube.faceObject] at hv
  rw [geometricFaceDof, if_pos hlt]
  simp [liftFault, liftCell, hdiv, hmod, hv, Except.mapError, bind, Except.bind, pure, Except.pure]

/-- The `e`-th dof on face line `o` is the `e`-th dof on the cell line it is, while the face line
dofs follow the vertex dofs and come before the face's own. -/
theorem geometricFaceDof_line {fd : DofLayout} {c : Hypercube} {o e f v : Nat}
    (hFQ : fd.firstFaceLineIndex + (c.objectsPerFace.getD 1 0 : Int) * fd.dofsPerLine ≤
      fd.firstFaceQuadIndex)
    (ho : o < c.objectsPerFace.getD 1 0) (he : (e : Int) < fd.dofsPerLine)
    (hv : c.faceObject 1 f o = .ok v) :
    geometricFaceDof fd c (fd.firstFaceLineIndex + o * fd.dofsPerLine + e) f =
      .ok (fd.firstLineIndex + v * fd.dofsPerLine + e) := by
  have hge : ¬(fd.firstFaceLineIndex + (o : Int) * fd.dofsPerLine + e < fd.firstFaceLineIndex) := by
    have := Int.mul_nonneg (Int.natCast_nonneg o) (show (0 : Int) ≤ fd.dofsPerLine by omega)
    omega
  have hlt : fd.firstFaceLineIndex + (o : Int) * fd.dofsPerLine + e < fd.firstFaceQuadIndex := by
    have := mul_add_le_mul (n := fd.dofsPerLine)
      (show (o : Int) < c.objectsPerFace.getD 1 0 by exact_mod_cast ho) (by omega)
    omega
  have hoff : fd.firstFaceLineIndex + (o : Int) * fd.dofsPerLine + e - fd.firstFaceLineIndex =
      o * fd.dofsPerLine + e := by omega
  obtain ⟨hdiv, hmod⟩ := truncDiv_mul_add (Int.natCast_nonneg o) (Int.natCast_nonneg e) he
  simp only [Hypercube.faceObject] at hv
  rw [geometricFaceDof, if_neg hge, if_pos hlt, hoff]
  simp [liftFault, liftCell, hdiv, hmod, hv, Except.mapError, bind, Except.bind, pure, Except.pure]

/-- **The reference cell's face numbering, object by object.** With exact offsets, the `e`-th dof
on face object `o` of kind `κ` is the `e`-th dof on the cell object that face object is. -/
theorem geometricFaceDof_objectwise {fd : DofLayout} {c : Hypercube} (hw : fd.Wf c)
    (hfit : fd.cellPrefix c 4 < 2 ^ 63) {κ o e f v : Nat} (hκ : κ < c.dim)
    (ho : o < c.objectsPerFace.getD κ 0) (he : (e : Int) < fd.countOf κ)
    (hv : c.faceObject κ f o = .ok v) :
    geometricFaceDof fd c (fd.facePrefix c κ + o * fd.countOf κ + e) f =
      .ok (fd.cellPrefix c κ + v * fd.countOf κ + e) := by
  obtain ⟨hfirst, -, hface, -⟩ := hw.exact hfit
  have hFL : fd.firstFaceLineIndex = fd.facePrefix c 1 := hface 1 (by omega)
  have hFQ : fd.firstFaceQuadIndex = fd.facePrefix c 2 := hface 2 (by omega)
  have hF1 : fd.facePrefix c 1 = (c.objectsPerFace.getD 0 0 : Int) * fd.dofsPerVertex := by
    simp [DofLayout.facePrefix, DofLayout.countOf, DofLayout.allCounts]
  have hF2 : fd.facePrefix c 2 =
      fd.facePrefix c 1 + (c.objectsPerFace.getD 1 0 : Int) * fd.dofsPerLine :=
    fd.facePrefix_succ c 1
  have hn := hw.count_nonneg
  have hP1 : 0 ≤ fd.facePrefix c 1 := DofLayout.facePrefix_nonneg hn 1
  have hP2 : fd.facePrefix c 1 ≤ fd.facePrefix c 2 := DofLayout.facePrefix_mono hn (by omega)
  -- one case per branch of the face numbering: vertex, line, quadrilateral
  rcases κ with _ | _ | _ | κ
  · change (e : Int) < fd.dofsPerVertex at he
    change geometricFaceDof fd c (0 + o * fd.dofsPerVertex + e) f =
      .ok (0 + v * fd.dofsPerVertex + e)
    rw [Int.zero_add, Int.zero_add]
    exact geometricFaceDof_vertex (by omega) ho he hv
  · change (e : Int) < fd.dofsPerLine at he
    change geometricFaceDof fd c (fd.facePrefix c 1 + o * fd.dofsPerLine + e) f =
      .ok (fd.cellPrefix c 1 + v * fd.dofsPerLine + e)
    rw [← hFL, ← hfirst 1 (by omega)]
    exact geometricFaceDof_line (by omega) ho he hv
  · -- only the cube has faces with a quadrilateral, one per face: the face itself
    cases c with
    | interval | square => simp [Hypercube.dim] at hκ
    | cube =>
      have ho0 : o = 0 := by simpa [Hypercube.objectsPerFace] using ho
      subst ho0
      have hvf : v = f := by
        simp only [Hypercube.faceObject, Hypercube.check] at hv
        split_ifs at hv
        simpa using hv.symm
      subst hvf
      change (e : Int) < fd.dofsPerQuad at he
      have hge1 : ¬(fd.facePrefix .cube 2 + ((0 : Nat) : Int) * fd.countOf 2 + e <
          fd.firstFaceLineIndex) := by
        simp
        omega
      have hge2 : ¬(fd.facePrefix .cube 2 + ((0 : Nat) : Int) * fd.countOf 2 + e <
          fd.firstFaceQuadIndex) := by
        simp
        omega
      rw [geometricFaceDof, if_neg hge1, if_neg hge2, ← hfirst 2 (by omega), hFQ]
      simp [pure, Except.pure, DofLayout.firstOf, DofLayout.countOf, DofLayout.allCounts]
  · have : c.dim ≤ 3 := by cases c <;> simp [Hypercube.dim]
    omega

namespace Store

/-- Face dof `j` of face `face` is entry `j` of the face's row of the face table. -/
theorem faceToCellIndex_eq_ok {s : Store} {j face : Int} {i : Nat} :
    s.faceToCellIndex j face = .ok i ↔ 0 ≤ j ∧ j < s.layout.dofsPerFace ∧ 0 ≤ face ∧
      face < s.cell.facesPerCell ∧ i = (s.faceDofs.getD face.toNat []).getD j.toNat 0 := by
  simp only [faceToCellIndex, bind_eq_ok, checkIndex_eq_ok, pure, Except.pure, Except.ok.injEq]
  constructor
  · rintro ⟨_, ⟨hj0, hj, rfl⟩, _, ⟨hf0, hf, rfl⟩, rfl⟩
    exact ⟨hj0, hj, hf0, hf, rfl⟩
  · rintro ⟨hj0, hj, hf0, hf, rfl⟩
    exact ⟨_, ⟨hj0, hj, rfl⟩, _, ⟨hf0, hf, rfl⟩, rfl⟩

theorem faceToCellIndex_of_lt {s : Store} {j f : Nat} (hj : (j : Int) < s.layout.dofsPerFace)
    (hf : f < s.cell.facesPerCell) :
    s.faceToCellIndex j f = .ok ((s.faceDofs.getD f []).getD j 0) :=
  faceToCellIndex_eq_ok.2 ⟨Int.natCast_nonneg j, hj, Int.natCast_nonneg f, by omega, by simp⟩

/-- Distinct face dofs of face `f` are distinct cell dofs. -/
def FaceInjective (s : Store) (f : Nat) : Prop :=
  ∀ j j' i, s.faceToCellIndex j f = .ok i → s.faceToCellIndex j' f = .ok i → j = j'

/-- Shape function `i` has support on face `face` when the face's row of the face table lists
it. -/
theorem hasSupportOnFace_eq_ok {s : Store} {i face : Int} {b : Bool} :
    s.hasSupportOnFace i face = .ok b ↔ 0 ≤ i ∧ i < s.dofsPerCell ∧ 0 ≤ face ∧
      face < s.cell.facesPerCell ∧ b = (s.faceDofs.getD face.toNat []).contains i.toNat := by
  simp only [hasSupportOnFace, bind_eq_ok, checkIndex_eq_ok, pure, Except.pure, Except.ok.injEq]
  constructor
  · rintro ⟨_, ⟨hi0, hi, rfl⟩, _, ⟨hf0, hf, rfl⟩, rfl⟩
    exact ⟨hi0, hi, hf0, hf, rfl⟩
  · rintro ⟨hi0, hi, hf0, hf, rfl⟩
    exact ⟨_, ⟨hi0, hi, rfl⟩, _, ⟨hf0, hf, rfl⟩, rfl⟩

namespace WellFormed

variable {s : Store} (hs : s.WellFormed)
include hs

/-- **Support on a face.** A shape function of a well-formed store has support on a face exactly
when it is the cell dof of one of the face's dofs. -/
theorem hasSupportOnFace_iff {i face : Int} :
    s.hasSupportOnFace i face = .ok true ↔ 0 ≤ i ∧ ∃ j, s.faceToCellIndex j face = .ok i.toNat := by
  rw [hasSupportOnFace_eq_ok]
  constructor
  · rintro ⟨hi0, -, hf0, hf, hmem⟩
    obtain ⟨j, hj, hget⟩ := List.getElem_of_mem (List.contains_iff_mem.1 hmem.symm)
    have hrow := hs.faceDofs_row face.toNat (by omega)
    refine ⟨hi0, j, faceToCellIndex_eq_ok.2 ⟨Int.natCast_nonneg j, by omega, hf0, hf, ?_⟩⟩
    rw [Int.toNat_natCast, List.getD_eq_getElem _ _ hj, hget]
  · rintro ⟨hi0, j, hj⟩
    obtain ⟨hj0, hjlt, hf0, hf, hentry⟩ := faceToCellIndex_eq_ok.1 hj
    have hlt := hs.faceDofs_lt face.toNat (by omega) j.toNat (by omega)
    have hrow := hs.faceDofs_row face.toNat (by omega)
    have hjrow : j.toNat < (s.faceDofs.getD face.toNat []).length := by omega
    refine ⟨hi0, by rw [← hentry] at hlt; omega, hf0, hf, ?_⟩
    rw [hentry, List.getD_eq_getElem _ _ hjrow]
    exact (List.contains_iff_mem.2 (List.getElem_mem hjrow)).symm

/-- **Face dofs of an element numbered object kind by object kind.** When its offsets are exact,
the `e`-th dof on face object `o` of kind `κ` of face `f` is the `e`-th dof on the cell object that
face object is. -/
theorem faceToCellIndex_objectwise (heo : s.entityOrdered = true)
    (hfit : s.layout.cellPrefix s.cell 4 < 2 ^ 63) {κ o e f v : Nat} (hκ : κ < s.cell.dim)
    (ho : o < s.cell.objectsPerFace.getD κ 0) (he : (e : Int) < s.layout.countOf κ)
    (hf : f < s.cell.facesPerCell) (hv : s.cell.faceObject κ f o = .ok v) :
    s.faceToCellIndex (s.layout.facePrefix s.cell κ + o * s.layout.countOf κ + e) f =
      .ok (s.layout.cellPrefix s.cell κ + v * s.layout.countOf κ + e).toNat := by
  have hn := hs.layout_wf.count_nonneg
  have hj0 : 0 ≤ s.layout.facePrefix s.cell κ + o * s.layout.countOf κ + e := by
    have := DofLayout.facePrefix_nonneg hn (c := s.cell) κ
    have := Int.mul_nonneg (Int.natCast_nonneg o) (hn κ)
    omega
  -- the face dof comes before the dofs of the later kinds of face objects
  have hjlt : s.layout.facePrefix s.cell κ + o * s.layout.countOf κ + e < s.layout.dofsPerFace := by
    have hsucc := s.layout.facePrefix_succ s.cell κ
    have hmono := DofLayout.facePrefix_mono hn (c := s.cell) (show κ + 1 ≤ 3 by
      have : s.cell.dim ≤ 3 := by cases s.cell <;> simp [Hypercube.dim]
      omega)
    have hmul := mul_add_le_mul (n := s.layout.countOf κ)
      (show (o : Int) < s.cell.objectsPerFace.getD κ 0 by exact_mod_cast ho) (hn κ)
    rw [(hs.layout_wf.exact hfit).2.2.2]
    omega
  have hrow := hs.geometric heo f hf _ (show (s.layout.facePrefix s.cell κ + o * s.layout.countOf κ +
    e).toNat < s.layout.dofsPerFace.toNat by omega)
  rw [Int.toNat_of_nonneg hj0, geometricFaceDof_objectwise hs.layout_wf hfit hκ ho he hv] at hrow
  rw [← Int.toNat_of_nonneg hj0, faceToCellIndex_of_lt (by omega) hf, Except.ok.inj hrow,
    Int.toNat_natCast]

end WellFormed

end Store

end FiniteElements.Element
