import FiniteElements.Proofs.Constraint.Verdict
import FiniteElements.Proofs.Element.FaceClosure

/-!
# Building a simple element

`Store.ofDefinition` checks a definition, makes its default tables, stores its transfer matrices
and its constraints, and tabulates the reference cell's face numbering. Of these steps only the
check and the two stores judge the definition: on a layout built from counts whose dofs, counted
exactly, fit a machine word, the tables and the face table are always made. The cell dof checked
for a face dof is the dof at the same place on the cell object of the same kind
(`faceCheckDof_objectwise`), so it lies on the cell (`faceCheckDof_lt`), and so does every face
dof of every face (`geometricFaceDof_lt`).

So on such a layout, with a constraint matrix that fits the heap, building never stops: a failure
is a reported error of one of the library's kinds (`ReportsKind`). The element is built exactly
when the check and the three stores accept, and it is then well formed
(`ofDefinition_reports_or_builds`).

Neither condition can go. A layout that was not built from counts may claim face line dofs that
start after face dof `0` with no vertex dofs, and the face numbering then divides by zero. Counts
whose offsets wrap may ask for a negative number of face dofs. In both cases the definition
passes every check and building still stops (`rawAndWrappedLayouts_stop`).

## Main definitions

* `FiniteElements.Element.ReportsKind`

## Main results

* `reportsKind_storeConstraints`, `defaultTables_isOk`, `tabulateFaceDofs_geometric`
* `ofDefinition_reports_or_builds`
-/

namespace FiniteElements.Element

set_option autoImplicit false

open FiniteElements.Cell FiniteElements.Dense FiniteElements.Constraint

/-- A computation that never stops: when it fails, it reports an error of one of the library's
kinds. -/
def ReportsKind {α : Type} (x : Outcome α) : Prop :=
  ∀ f, x = .error f → ∃ e, f = .reported e ∧ e.kind.isSome = true

namespace ReportsKind

variable {α β : Type}

theorem of_eq_ok {x : Outcome α} {a : α} (h : x = .ok a) : ReportsKind x := by
  intro f hf
  rw [h] at hf
  cases hf

theorem bind {x : Outcome α} {g : α → Outcome β} (hx : ReportsKind x)
    (hg : ∀ a, x = .ok a → ReportsKind (g a)) : ReportsKind (x >>= g) := by
  intro f hf
  rcases bind_eq_error.1 hf with hf | ⟨a, ha, hf⟩
  · exact hx f hf
  · exact hg a ha f hf

/-- Errors of a kind, reported under a context that keeps the kind. -/
theorem mapError_reported {x : Except ElementError α} {g : ElementError → ElementError}
    (hx : ∀ e, x = .error e → (g e).kind.isSome = true) :
    ReportsKind (x.mapError fun e => .reported (g e)) := by
  intro f hf
  obtain ⟨e, he, rfl⟩ := mapError_eq_error.1 hf
  exact ⟨g e, rfl, hx e he⟩

theorem within {x : Outcome α} {g : ElementError → ElementError} (hx : ReportsKind x)
    (hg : ∀ e, (g e).kind = e.kind) : ReportsKind (x.mapError (Failure.within g)) := by
  intro f hf
  obtain ⟨f₀, hf₀, rfl⟩ := mapError_eq_error.1 hf
  obtain ⟨e, rfl, he⟩ := hx f₀ hf₀
  exact ⟨g e, rfl, by rw [hg]; exact he⟩

end ReportsKind

section Judges

/-- Every error of a definition's check is of a kind: invalid element data or a dimension
mismatch. -/
theorem Definition.kind_of_check_eq_error {d : Definition} {e : ElementError}
    (h : d.check = .error e) : e.kind.isSome = true := by
  unfold Definition.check at h
  cases hc : Hypercube.ofDim? d.layout.dim with
  | error e' =>
    simp only [hc, Except.mapError, bind, Except.bind, Except.error.injEq] at h
    rw [← h]
    rfl
  | ok c =>
    -- each guard throws one error of a fixed constructor
    simp only [hc, Except.mapError, bind, Except.bind, throw, throwThe, MonadExceptOf.throw,
      pure, Except.pure] at h
    split_ifs at h
    · cases h
      rfl
    · cases h
      rfl
    · cases h
      rfl
    · cases h
      rfl
    · -- the first bad mask is of the wrong size or selects nothing
      split at h
      · split_ifs at h <;> cases h <;> rfl
      · cases h

/-- Transfer matrices are rejected for their count or their shape. -/
theorem kind_of_storeTransfer_eq_error {kind : Transfer} {mats : List Matrix} {fd : DofLayout}
    {c : Hypercube} {e : ElementError} (h : storeTransfer kind mats fd c = .error e) :
    e.kind = some .wrongTransferMatrixSize := by
  unfold storeTransfer at h
  simp only [bind, Except.bind, throw, throwThe, MonadExceptOf.throw, pure, Except.pure] at h
  split_ifs at h
  · cases h
    rfl
  · obtain ⟨⟨m, child⟩, -, hx⟩ := exists_of_mapM_eq_error h
    dsimp only at hx
    split_ifs at hx
    cases hx
    rfl

/-- **The constraint store never stops** on a layout of counts that fit a machine word and a
matrix that fits the heap: it rejects only a matrix of the wrong size or an inconsistent one. -/
theorem reportsKind_storeConstraints {C : Matrix} {fd : DofLayout} {c : Hypercube} (hw : fd.Wf c)
    (hfit : fd.cellPrefix c 4 < 2 ^ 63) (haddr : C.Addressable) :
    ReportsKind (storeConstraints C fd) := by
  intro f hf
  unfold storeConstraints at hf
  cases hC : C.isEmpty with
  | true => simp [hC, pure, Except.pure] at hf
  | false =>
    simp only [hC, Bool.false_eq_true, if_false] at hf
    split_ifs at hf with hshape
    · simp only [report, bind, Except.bind, Except.error.injEq] at hf
      exact ⟨_, hf.symm, rfl⟩
    -- a matrix of the constraint size is rejected only by the consistency check
    have hcons : consistentAlongLines fd C = .error f := by
      rcases bind_eq_error.1 hf with h | ⟨_, -, h⟩
      · exact h
      · cases h
    by_cases h3 : fd.dim = 3
    · obtain rfl := cube_of_dim_three hw h3
      simp only [Bool.or_eq_true, bne_iff_ne, ne_eq, not_or, not_not] at hshape
      obtain ⟨e, rfl, he⟩ :=
        (consistentAlongLines_of_size hw hfit hshape.1 hshape.2 haddr).2 f hcons
      exact ⟨e, rfl, by simp [he]⟩
    · rw [consistentAlongLines_of_dim_ne h3] at hcons
      cases hcons

end Judges

section Tables

variable {fd : DofLayout} {c : Hypercube} (hw : fd.Wf c) (hfit : fd.cellPrefix c 4 < 2 ^ 63)
include hw hfit

/-- The `e`-th dof on cell object `v` of kind `κ` is a dof of the cell. -/
theorem cellObjectDof_lt {κ v e : Nat} (hκ : κ < c.dim) (hv : v < c.objectsPerCell.getD κ 0)
    (he : (e : Int) < fd.countOf κ) :
    0 ≤ fd.cellPrefix c κ + v * fd.countOf κ + e ∧
      fd.cellPrefix c κ + v * fd.countOf κ + e < fd.dofsPerCell := by
  have hn := hw.count_nonneg
  refine ⟨?_, ?_⟩
  · have := DofLayout.cellPrefix_nonneg hn (c := c) κ
    have := Int.mul_nonneg (Int.natCast_nonneg v) (hn κ)
    omega
  · -- the dofs of cell object `v` end before those of the next kind, and these by the last dof
    have hend := mul_add_le_mul (n := fd.countOf κ)
      (show (v : Int) < c.objectsPerCell.getD κ 0 by exact_mod_cast hv) (hn κ)
    have hdim : c.dim ≤ 3 := by cases c <;> simp [Hypercube.dim]
    have hnext := DofLayout.cellPrefix_mono hn (c := c) (show κ + 1 ≤ 4 by omega)
    rw [DofLayout.cellPrefix_succ, ← (hw.exact hfit).2.1] at hnext
    omega

/-- **The cell dof checked for a face dof, object by object.** With exact offsets, the cell dof
checked for the `e`-th dof on face object `o` of kind `κ` is the `e`-th dof on cell object `o` of
that kind. -/
theorem faceCheckDof_objectwise {κ o e : Nat} (hκ : κ < c.dim)
    (ho : o < c.objectsPerFace.getD κ 0) (he : (e : Int) < fd.countOf κ) :
    faceCheckDof fd c (fd.facePrefix c κ + o * fd.countOf κ + e) =
      fd.cellPrefix c κ + o * fd.countOf κ + e := by
  have hn := hw.count_nonneg
  have hend := mul_add_le_mul (n := fd.countOf κ)
    (show (o : Int) < c.objectsPerFace.getD κ 0 by exact_mod_cast ho) (hn κ)
  have hv : 0 ≤ fd.dofsPerVertex := hn 0
  have hl : 0 ≤ fd.dofsPerLine := hn 1
  have hoe := Int.mul_nonneg (Int.natCast_nonneg o) (hn κ)
  -- one case per cell and kind of face object: the vertex, line and quadrilateral branches
  cases c <;> rcases κ with _ | _ | _ | κ <;>
    simp [Hypercube.dim, faceCheckDof, DofLayout.cellPrefix, DofLayout.facePrefix,
      DofLayout.countOf, DofLayout.allCounts, List.range_succ, Hypercube.verticesPerFace,
      Hypercube.linesPerFace, Hypercube.verticesPerCell, Hypercube.linesPerCell,
      Hypercube.objectsPerFace, Hypercube.objectsPerCell] at hκ hend hoe he ⊢ <;>
    omega

/-- The cell dof checked for a face dof is a dof of the cell. -/
theorem faceCheckDof_lt {i : Nat} (hi : (i : Int) < fd.dofsPerFace) :
    faceCheckDof fd c i < fd.dofsPerCell := by
  obtain ⟨κ, hκ, o, ho, e, he, hieq⟩ := hw.exists_faceObject_dof hfit hi
  rw [hieq, faceCheckDof_objectwise hw hfit hκ ho he]
  exact (cellObjectDof_lt hw hfit hκ (lt_of_lt_of_le ho (DofLayout.objectsPerFace_le c κ)) he).2

/-- **Every face dof of every face lies on a cell dof** in the reference cell's face numbering. -/
theorem geometricFaceDof_lt {f j : Nat} (hf : f < c.facesPerCell)
    (hj : (j : Int) < fd.dofsPerFace) :
    ∃ k, geometricFaceDof fd c j f = .ok k ∧ 0 ≤ k ∧ k < fd.dofsPerCell := by
  obtain ⟨κ, hκ, o, ho, e, he, hjeq⟩ := hw.exists_faceObject_dof hfit hj
  obtain ⟨v, hv, hobj⟩ := c.exists_faceObject hκ hf ho
  exact ⟨_, hjeq ▸ geometricFaceDof_objectwise hw hfit hκ ho he hobj,
    cellObjectDof_lt hw hfit hκ hv he⟩

/-- The reference cell's face table is made. -/
theorem tabulateFaceDofs_geometric :
    ∃ rows, tabulateFaceDofs fd c (faceDofOf fd c none) = .ok rows := by
  refine ⟨_, tabulateFaceDofs_eq_ok_map (g := fun j f => okValue (geometricFaceDof fd c j f))
    fun f hf j hj => ?_⟩
  obtain ⟨k, hk, hk0, hklt⟩ := geometricFaceDof_lt hw hfit hf (j := j) (by omega)
  have hval : okValue (geometricFaceDof fd c j f) = k := by rw [hk]; rfl
  rw [hval]
  exact ⟨by simp [faceDofOf, hk], hk0, hklt⟩

end Tables

/-- **The default tables are made** for a definition with one mask per dof, on a layout of counts
that fit a machine word. -/
theorem defaultTables_isOk {d : Definition} {c : Hypercube} (hw : d.layout.Wf c)
    (hfit : d.layout.cellPrefix c 4 < 2 ^ 63)
    (hmasks : (d.masks.length : Int) = d.layout.dofsPerCell) :
    ∃ t, defaultTables d c = .ok t := by
  have hface : 0 ≤ d.layout.dofsPerFace := by
    rw [(hw.exact hfit).2.2.2]
    exact DofLayout.facePrefix_nonneg hw.count_nonneg 3
  unfold defaultTables
  dsimp only
  rw [if_neg (by omega)]
  have hcheck : ∀ i ∈ List.range d.layout.dofsPerFace.toNat,
      (do
        let _ ← liftFault (checkedIndex d.masks (faceCheckDof d.layout c i))
        return (faceCheckDof d.layout c i).toNat : Outcome Nat) =
        .ok (faceCheckDof d.layout c i).toNat := by
    intro i hi
    have hi' : (i : Int) < d.layout.dofsPerFace := by
      have := List.mem_range.1 hi
      omega
    have h0 := le_faceCheckDof (c := c) (hw.count_nonneg 0) (hw.count_nonneg 1) i
    have hlt := faceCheckDof_lt hw hfit hi'
    have hin : 0 ≤ faceCheckDof d.layout c i ∧
        (faceCheckDof d.layout c i).toNat < d.masks.length := by
      omega
    simp [liftFault, checkedIndex, hin, Except.mapError, bind, Except.bind, pure, Except.pure]
  rw [mapM_eq_ok_map hcheck]
  exact ⟨_, rfl⟩

/-- A definition is accepted on cell `c` when it passes its check there and both transfer stores
and the constraint store accept its matrices. -/
structure Definition.Accepted (d : Definition) (c : Hypercube) : Prop where
  check : d.check = .ok c
  restriction : ∃ r, storeTransfer .restriction d.restriction d.layout c = .ok r
  prolongation : ∃ p, storeTransfer .prolongation d.prolongation d.layout c = .ok p
  constraints : ∃ C, storeConstraints d.constraints d.layout = .ok C

namespace Store

variable {d : Definition} {c : Hypercube} {tables : IndexTables}
  {faceMap : Option (List (List Nat))}

/-- **Assembling succeeds** on an accepted definition once the face table is made. -/
theorem assemble_isOk (hd : d.Accepted c)
    (hf : ∃ rows, tabulateFaceDofs d.layout c (faceDofOf d.layout c faceMap) = .ok rows) :
    ∃ s, assemble d c tables faceMap = .ok s := by
  obtain ⟨r, hr⟩ := hd.restriction
  obtain ⟨p, hp⟩ := hd.prolongation
  obtain ⟨C, hC⟩ := hd.constraints
  obtain ⟨rows, hf⟩ := hf
  unfold assemble
  simp only [hr, hp, hC, hf, Except.mapError, bind, Except.bind, pure, Except.pure]
  exact ⟨_, rfl⟩

/-- Assembling never stops when the constraint store does not and the face table is made: the
transfer stores only report. -/
theorem reportsKind_assemble (hC : ReportsKind (storeConstraints d.constraints d.layout))
    (hf : ∃ rows, tabulateFaceDofs d.layout c (faceDofOf d.layout c faceMap) = .ok rows) :
    ReportsKind (assemble d c tables faceMap) := by
  obtain ⟨rows, hf⟩ := hf
  have htransfer (kind : Transfer) (mats : List Matrix) :
      ReportsKind ((storeTransfer kind mats d.layout c).mapError
        fun e => .reported (.inElement d.name e)) :=
    ReportsKind.mapError_reported fun e he => by
      simp [ElementError.kind, kind_of_storeTransfer_eq_error he]
  unfold assemble
  refine (htransfer _ _).bind fun _ _ => (htransfer _ _).bind fun _ _ =>
    (hC.within (g := ElementError.inElement d.name) fun _ => rfl).bind fun _ _ => ?_
  exact (ReportsKind.of_eq_ok hf).bind fun _ _ => ReportsKind.of_eq_ok rfl

/-- A built element was accepted. -/
theorem accepted_of_ofDefinition {s : Store} (hs : ofDefinition d = .ok s) :
    ∃ c, d.Accepted c := by
  obtain ⟨c, tables, hc, -, hasm⟩ := ofDefinition_eq_ok hs
  obtain ⟨r, p, C, -, hr, hp, hC, -⟩ := assemble_eq_ok hasm
  exact ⟨c, hc, ⟨r, hr⟩, ⟨p, hp⟩, ⟨C, hC⟩⟩

end Store

/-- **Building a simple element never stops, and builds exactly what is accepted.** On a layout
of counts whose dofs fit a machine word, with a constraint matrix that fits the heap, every
failure is a reported error of one of the library's kinds. The element is built exactly when the
definition passes its check and both transfer stores and the constraint store accept its
matrices, and what is built is well formed. -/
theorem ofDefinition_reports_or_builds {dim degree components : Int} {counts : List Int}
    {d : Definition} (hfd : DofLayout.ofCounts? dim counts components degree = .ok d.layout)
    (hfit : ∀ c, Hypercube.ofDim? dim = .ok c → d.layout.cellPrefix c 4 < 2 ^ 63)
    (haddr : d.constraints.Addressable) :
    ReportsKind (Store.ofDefinition d) ∧ ((∃ s, Store.ofDefinition d = .ok s) ↔ ∃ c, d.Accepted c) ∧
      ∀ s, Store.ofDefinition d = .ok s → s.WellFormed := by
  obtain ⟨c, hw, hdim, -⟩ := DofLayout.wf_of_ofCounts? hfd
  have hfit := hfit c (hdim ▸ hw.cell)
  -- a checked definition is on the layout's cell, with one mask per dof
  have hchecked {c' : Hypercube} (h : d.check = .ok c') :
      c' = c ∧ (d.masks.length : Int) = d.layout.dofsPerCell := by
    obtain ⟨hc', -, -, -, -, hmasks, -⟩ := Definition.check_eq_ok.1 h
    exact ⟨Except.ok.inj (hc'.symm.trans hw.cell), hmasks⟩
  refine ⟨?_, ⟨fun ⟨s, hs⟩ => Store.accepted_of_ofDefinition hs, fun ⟨c', hd⟩ => ?_⟩,
    fun s hs => Store.wellFormed_of_ofDefinition hfd hs⟩
  · unfold Store.ofDefinition
    refine (ReportsKind.mapError_reported fun e he => Definition.kind_of_check_eq_error he).bind
      fun c' hc' => ?_
    obtain ⟨rfl, hmasks⟩ := hchecked (mapError_eq_ok.1 hc')
    obtain ⟨t, ht⟩ := defaultTables_isOk hw hfit hmasks
    rw [ht]
    exact (ReportsKind.of_eq_ok rfl).bind fun _ _ =>
      Store.reportsKind_assemble (reportsKind_storeConstraints hw hfit haddr)
        (tabulateFaceDofs_geometric hw hfit)
  · obtain ⟨rfl, hmasks⟩ := hchecked hd.check
    obtain ⟨t, ht⟩ := defaultTables_isOk hw hfit hmasks
    obtain ⟨s, hs⟩ : ∃ s, Store.assemble d c' t none = .ok s :=
      Store.assemble_isOk hd (tabulateFaceDofs_geometric hw hfit)
    refine ⟨s, ?_⟩
    unfold Store.ofDefinition
    simp only [hd.check, ht, hs, Except.mapError, bind, Except.bind]

/-- The element with one dof on every object of the cube, and no transfer matrices or
constraints, is built. -/
theorem cubeAllObjects_built :
    DofLayout.ofCounts? 3 [1, 1, 1, 1] 1 2 = .ok cubeAllObjectsDefinition.layout ∧
      (∀ c, Hypercube.ofDim? 3 = .ok c → cubeAllObjectsDefinition.layout.cellPrefix c 4 < 2 ^ 63) ∧
      cubeAllObjectsDefinition.constraints.Addressable ∧
      ∃ s, Store.ofDefinition cubeAllObjectsDefinition = .ok s ∧ s.WellFormed := by
  have hfd : DofLayout.ofCounts? 3 [1, 1, 1, 1] 1 2 = .ok cubeAllObjectsDefinition.layout :=
    eq_ok_okValue (by decide)
  have hfit (c : Hypercube) (hc : Hypercube.ofDim? 3 = .ok c) :
      cubeAllObjectsDefinition.layout.cellPrefix c 4 < 2 ^ 63 := by
    obtain rfl : c = .cube := Except.ok.inj hc.symm
    decide
  have haddr : cubeAllObjectsDefinition.constraints.Addressable := by decide
  have hd : cubeAllObjectsDefinition.Accepted .cube := ⟨rfl, ⟨[], rfl⟩, ⟨[], rfl⟩, ⟨.empty, rfl⟩⟩
  obtain ⟨-, hbuilt, hwf⟩ := ofDefinition_reports_or_builds hfd hfit haddr
  obtain ⟨s, hs⟩ := hbuilt.2 ⟨.cube, hd⟩
  exact ⟨hfd, hfit, haddr, s, hs, hwf s hs⟩

/-- A layout that was not built from counts: one cell dof and one face dof, no vertex or line
dofs, and face line dofs that start after face dof `0`. -/
def rawLayout : DofLayout :=
  { dim := 3, dofsPerCell := 1, components := 1, dofsPerFace := 1, firstFaceLineIndex := 1,
    firstFaceQuadIndex := 1 }

/-- The layout of `2^62` dofs per vertex and one inside the square: its cell dofs wrap to one and
its face dofs to `-2^63`. -/
def wrappedSquareLayout : DofLayout :=
  okValue (DofLayout.ofCounts? 2 [4611686018427387904, 0, 1] 1 0)

/-- One dof in the first component on a layout, with no transfer matrices or constraints. -/
def oneDofDefinition (fd : DofLayout) : Definition :=
  { name := "Custom", layout := fd, additive := [false], masks := [⟨[true]⟩] }

/-- **Accepted definitions that still stop.** On a layout not built from counts, face dof `0` is
taken for a vertex dof and divided by the zero dofs per vertex; on counts whose offsets wrap, the
face dofs are a negative number. -/
theorem rawAndWrappedLayouts_stop :
    (oneDofDefinition rawLayout).Accepted .cube ∧
      Store.ofDefinition (oneDofDefinition rawLayout) =
        .error (.aborted (.fault .divisionByZero)) ∧
      (oneDofDefinition wrappedSquareLayout).Accepted .square ∧
      Store.ofDefinition (oneDofDefinition wrappedSquareLayout) =
        .error (.aborted (.fault .negativeLength)) :=
  ⟨⟨rfl, ⟨[], rfl⟩, ⟨[], rfl⟩, ⟨.empty, rfl⟩⟩, rfl, ⟨rfl, ⟨[], rfl⟩, ⟨[], rfl⟩, ⟨.empty, rfl⟩⟩, rfl⟩

end FiniteElements.Element
