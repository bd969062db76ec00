import FiniteElements.Element.Support
import FiniteElements.Proofs.Composite.Faces
import FiniteElements.Proofs.Composite.Counting
import FiniteElements.Proofs.Numeric.Ratio
import FiniteElements.Proofs.Family.ContinuousNodes

/-!
# Support points on the faces

The face support points of an element are read off face `0` alone: the support points of the
cell dofs of face `0`'s dofs, in face `0`'s `(u, v)` frame. They hold for every face when every
face numbers its dofs alike in its own frame: face dof `j` lies, on every face `f`, at the point of
face `f` with one set of frame coordinates `ξ`, whatever `f` (`FaceFramed`). Then reading `ξ` back
off face `0` gives `ξ` (`Hypercube.frame_onFace_zero`), and placing it on face `f` gives the
support point of the cell dof of `j` on `f` (`faceSupportPoints_of_faceFramed`).

Every element the families make places its face dofs so, and every system of such elements:

* a continuous element puts the `e`-th dof on a face object at the node of the same object of the
  face's reference cell, placed on the face (`continuousNodes_faceObject`); its coordinates
  `m / N` are the doubles `rational m N`, and on the sides `rational 0 N` and `rational N N` are
  exactly `0` and `1` (`rational_side`), so the support point is that placed frame point
  (`continuous_faceFramed`);
* a discontinuous element has no face dofs (`discontinuous_faceFramed`);
* a Raviart–Thomas element has one dof per face, at the centre of its face
  (`raviartThomas_faceFramed`);
* a system's face dof lies where its base's face dof lies, in the same copy
  (`CompositeRun.faceToCellIndex_place`), and its support point is its base's
  (`compose_faceFramed`).

The continuous element's face numbering is read from its counts, which are exact while its
`(N+1)^d` dofs fit a machine word; `FromFamilies` asks that of it.

## Main definitions

* `FiniteElements.Element.FaceFramed`, `FiniteElements.Element.FromFamilies`

## Main results

* `continuous_faceFramed`, `discontinuous_faceFramed`, `raviartThomas_faceFramed`,
  `compose_faceFramed`, `FromFamilies.faceFramed`
* `faceSupportPoints_of_faceFramed`
* `faceToCellPoint_faceSupportPoints`
-/

namespace FiniteElements.Cell

set_option autoImplicit false

/-- The reference cell of a cell's dimension is that cell. -/
theorem Hypercube.ofDim?_dim (c : Hypercube) : Hypercube.ofDim? (c.dim : Int) = .ok c := by
  cases c <;> rfl

/-- The top object of a face of the square or the cube is the face itself. -/
theorem Hypercube.faceObject_self {c : Hypercube} (hc : c ≠ .interval) :
    c.objectsPerFace.getD (c.dim - 1) 0 = 1 ∧
      ∀ f < c.facesPerCell, c.faceObject (c.dim - 1) f 0 = .ok f := by
  cases c with
  | interval => exact absurd rfl hc
  | square | cube =>
    refine ⟨rfl, fun f hf => toOption_eq_some.1 ?_⟩
    revert f
    decide

end FiniteElements.Cell

namespace FiniteElements.Element

set_option autoImplicit false

open FiniteElements.Cell FiniteElements.Family FiniteElements.Basis

@[simp]
theorem store_member (fam : Family) (s : Store) : (Element.member fam s).store = s := rfl

@[simp]
theorem store_composite (s : Store) (p : Packing) (bases : List Element) (ms : List Nat) :
    (Element.composite s p bases ms).store = s := rfl

namespace Store

/-- A store made from a definition on a layout of counts is well formed, lies on the cell of the
layout's dimension, takes its face table from the reference cell and keeps the counts. -/
theorem ofDefinition_of_counts {d : Definition} {c : Hypercube} {counts : List Int}
    {components degree : Int} {s : Store}
    (hfd : DofLayout.ofCounts? c.dim counts components degree = .ok d.layout)
    (hs : ofDefinition d = .ok s) :
    s.WellFormed ∧ s.cell = c ∧ s.entityOrdered = true ∧
      ∀ k, s.layout.countOf k = counts.getD k 0 := by
  have hwf := wellFormed_of_ofDefinition hfd hs
  obtain ⟨c', tables, -, -, hasm⟩ := ofDefinition_eq_ok hs
  obtain ⟨_, _, _, _, -, -, -, -, hs'⟩ := assemble_eq_ok hasm
  obtain ⟨-, -, hdim, -, hcount, -⟩ := DofLayout.wf_of_ofCounts? hfd
  have hlayout : s.layout = d.layout := by rw [hs']
  have hcell := hwf.layout_wf.cell
  rw [hlayout, hdim, Hypercube.ofDim?_dim, Except.ok.injEq] at hcell
  refine ⟨hwf, hcell.symm, by rw [hs']; rfl, fun k => ?_⟩
  rw [hlayout, hcount]

end Store

/-- A continuous element is a member store on its cell, numbered from the reference cell with the
family's counts. -/
theorem continuous_eq_ok {dim degree : Int} {e : Element} (h : continuous dim degree = .ok e) :
    ∃ c s, 1 ≤ degree ∧ Hypercube.ofDim? dim = .ok c ∧ e = .member (.continuous degree.toNat) s ∧
      s.WellFormed ∧ s.cell = c ∧ s.entityOrdered = true ∧
      ∀ k, s.layout.countOf k = (continuousCounts c degree.toNat).getD k 0 := by
  unfold continuous at h
  rw [ite_report_bind_eq_ok, bind_eq_ok] at h
  obtain ⟨hdeg, c, hc, h⟩ := h
  rw [bind_eq_ok] at h
  obtain ⟨d, hd, h⟩ := h
  rw [bind_eq_ok] at h
  obtain ⟨s, hs, h⟩ := h
  cases h
  unfold continuousDefinition at hd
  simp only [bind_eq_ok, mapError_eq_ok] at hd
  obtain ⟨fd, hfd, -, -, hd⟩ := hd
  cases hd
  obtain ⟨hwf, hcell, heo, hcount⟩ := Store.ofDefinition_of_counts hfd hs
  exact ⟨c, s, by omega, mapError_eq_ok.1 hc, rfl, hwf, hcell, heo, hcount⟩

/-- Every face dof of an element lies, on every face, at one point of that face's frame: the
support point of its cell dof on face `f` is the point of face `f` with the same frame
coordinates `ξ`, whatever the face. -/
def FaceFramed (e : Element) (P : List (List Float)) : Prop :=
  ∀ j : Nat, (j : Int) < e.store.layout.dofsPerFace → ∃ ξ : List Float,
    ξ.length = e.store.cell.dim - 1 ∧ ∀ f < e.store.cell.facesPerCell, ∃ k : Nat,
      e.store.faceToCellIndex j f = .ok k ∧ e.store.cell.faceToCellPoint f ξ = .ok (P.getD k [])

/-- The side of a face as a node coordinate: `0` or `N` by its parity, over `N`. -/
theorem rational_side {N : Nat} (h1 : 1 ≤ N) (h63 : N < 2 ^ 63) (f : Nat) :
    rational ((f % 2 * N : Nat) : Int) (N : Int) = if (f : Int) % 2 == 1 then 1 else 0 := by
  rcases Nat.mod_two_eq_zero_or_one f with h | h
  · have hf : (f : Int) % 2 = 0 := by omega
    rw [h, Nat.zero_mul, hf]
    exact rational_zero h1 h63
  · have hf : (f : Int) % 2 = 1 := by omega
    rw [h, Nat.one_mul, hf]
    exact rational_self h1 h63

theorem supportPoints_continuous (N : Nat) (s : Store) :
    (Element.member (.continuous N) s).supportPoints =
      .ok ((List.range s.dofsPerCell.toNat).map (continuousSupportPoint s.cell N)) := by
  rw [supportPoints]
  rfl

section Continuous

variable {c : Hypercube} {N : Nat} {fd : DofLayout}

/-- The offsets of a layout with the continuous element's counts. -/
theorem cellPrefix_continuous (hn : ∀ k, 0 ≤ fd.countOf k)
    (hcnt : ∀ k ≤ c.dim, fd.countOf k = (((N - 1) ^ k : Nat) : Int)) (κ : Nat) :
    fd.cellPrefix c κ = (objectOffset (c.objectsPerCell.getD · 0) (fun k => (N - 1) ^ k) κ : Int) := by
  rw [DofLayout.cellPrefix_eq_objectOffset hn]
  congr 1
  refine objectOffset_congr fun j _ => ?_
  by_cases hj : j ≤ c.dim
  · exact .inr (by rw [hcnt j hj, Int.toNat_natCast])
  · exact .inl (Hypercube.objectsPerCell_eq_zero (by omega))

/-- **The continuous elements place every face dof alike on every face.** -/
theorem continuous_faceFramed {dim degree : Int} {e : Element} (h : continuous dim degree = .ok e)
    (hfit : (degree.toNat + 1) ^ dim.toNat < 2 ^ 63) :
    ∃ P, e.supportPoints = .ok P ∧ FaceFramed e P := by
  obtain ⟨c, s, hdeg, hc, rfl, hs, hcell, heo, hcount⟩ := continuous_eq_ok h
  have hN : 1 ≤ degree.toNat := by omega
  have hdim : c.dim = dim.toNat := by have := Hypercube.dim_of_ofDim? hc; omega
  have hfit' : (degree.toNat + 1) ^ c.dim < 2 ^ 63 := hdim ▸ hfit
  have hN63 : degree.toNat < 2 ^ 63 :=
    Nat.lt_of_lt_of_le (Nat.lt_of_lt_of_le (Nat.lt_succ_self _)
      (Nat.le_self_pow (by cases c <;> simp [Hypercube.dim]) _)) hfit'.le
  generalize degree.toNat = N at hN hfit' hN63 hcount
  subst hcell
  have hcnt : ∀ k ≤ s.cell.dim, s.layout.countOf k = (((N - 1) ^ k : Nat) : Int) := fun k hk => by
    rw [hcount, getD_continuousCounts hN hfit' hk]
  have hpre := cellPrefix_continuous hs.layout_wf.count_nonneg hcnt
  have hfitS : s.layout.cellPrefix s.cell 4 < 2 ^ 63 := by
    rw [hpre, objectOffset_continuous hN]
    exact_mod_cast hfit'
  refine ⟨_, supportPoints_continuous N s, fun j hj => ?_⟩
  obtain ⟨κ, hκ, o, ho, e, he, hj⟩ := hs.exists_faceObject_dof hfitS hj
  rw [hcnt κ hκ.le] at he hj
  have he' : e < (N - 1) ^ κ := by exact_mod_cast he
  -- the frame coordinates: those of the same object of the face's reference cell
  obtain ⟨v₀, -, hobj₀⟩ := s.cell.exists_faceObject hκ (show 0 < s.cell.facesPerCell by
    cases s.cell <;> decide) ho
  have hlen := (objectShape_faceObject s.cell κ hκ 0 (by cases s.cell <;> decide) o ho v₀
    (by simp [hobj₀, Except.toOption])).2
  refine ⟨((frameShape s.cell κ o).map (Coord.eval N (innerCoords N κ e))).map
    fun (m : Nat) => rational m N,
    by rw [List.length_map, List.length_map]; exact hlen, fun f hf => ?_⟩
  obtain ⟨v, hv, hobj⟩ := s.cell.exists_faceObject hκ hf ho
  have hk := hs.faceToCellIndex_objectwise heo hfitS hκ ho (by rw [hcnt κ hκ.le]; exact he) hf hobj
  rw [hcnt κ hκ.le, ← hj, hpre] at hk
  -- the cell dof is the `e`-th dof on cell object `v`, in the node list's numbering
  set kf := objectOffset (s.cell.objectsPerCell.getD · 0) (fun k => (N - 1) ^ k) κ +
    v * (N - 1) ^ κ + e with hkf
  have hcast : ((objectOffset (s.cell.objectsPerCell.getD · 0) (fun k => (N - 1) ^ k) κ : Nat) +
      (v : Int) * (((N - 1) ^ κ : Nat) : Int) + e : Int) = (kf : Int) := by
    rw [hkf]
    push_cast
    rfl
  rw [hcast, Int.toNat_natCast] at hk
  refine ⟨kf, hk, ?_⟩
  have hlt : kf < s.dofsPerCell.toNat := by
    obtain ⟨-, hjlt, -, -, hentry⟩ := Store.faceToCellIndex_eq_ok.1 hk
    have := hs.faceDofs_lt f hf j (by omega)
    rw [Int.toNat_natCast, Int.toNat_natCast] at hentry
    omega
  have hnode := continuousNodes_faceObject (N := N) hκ hf ho he' hobj
  rw [getD_map_range hlt, continuousSupportPoint, List.getD_eq_getElem?_getD, hnode,
    Option.getD_some, Hypercube.map_onFace, rational_side hN hN63, Nat.cast_zero, rational_zero hN hN63]
  exact s.cell.faceToCellPoint_eq_onFace hf (by simp [hlen])

end Continuous

/-- Faces carry no dofs when no object of a kind below the cell's dimension does. -/
theorem DofLayout.facePrefix_eq_zero {fd : DofLayout} {c : Hypercube}
    (h : ∀ k < c.dim, fd.countOf k = 0) (k : Nat) : fd.facePrefix c k = 0 := by
  induction k with
  | zero => simp [DofLayout.facePrefix]
  | succ k ih =>
    rw [DofLayout.facePrefix_succ, ih]
    by_cases hk : k < c.dim
    · rw [h k hk, Int.mul_zero, Int.add_zero]
    · rw [Hypercube.objectsPerFace_eq_zero (by omega)]
      simp

/-- **The discontinuous elements have no face dofs**, so nothing is to be placed on a face. -/
theorem discontinuous_faceFramed {dim degree : Int} {e : Element}
    (h : discontinuous dim degree = .ok e) : ∃ P, e.supportPoints = .ok P ∧ FaceFramed e P := by
  unfold discontinuous at h
  rw [ite_report_bind_eq_ok, bind_eq_ok] at h
  obtain ⟨-, c, -, h⟩ := h
  rw [bind_eq_ok] at h
  obtain ⟨d, hd, h⟩ := h
  rw [bind_eq_ok] at h
  obtain ⟨s, hs, h⟩ := h
  cases h
  unfold discontinuousDefinition at hd
  simp only [bind_eq_ok, mapError_eq_ok] at hd
  obtain ⟨fd, hfd, -, -, R₀, -, R₁, -, P, -, R, -, hd⟩ := hd
  cases hd
  obtain ⟨hwf, hcell, -, hcount⟩ := Store.ofDefinition_of_counts hfd hs
  -- all dofs are interior: the counts below the cell's dimension are zero
  have hzero : ∀ k < s.cell.dim, s.layout.countOf k = 0 := fun k hk => by
    rw [hcell] at hk
    rw [hcount, List.getD_eq_getElem?_getD, List.getElem?_map, List.getElem?_range (by omega)]
    simp [Nat.ne_of_lt hk]
  have hfaces : s.layout.dofsPerFace = 0 := by
    rw [hwf.layout_wf.dofsPerFace_eq, DofLayout.facePrefix_eq_zero hzero]
    rfl
  refine ⟨_, by rw [supportPoints]; rfl, fun j hj => absurd hj ?_⟩
  change ¬((j : Int) < s.layout.dofsPerFace)
  omega

/-- The layout of one dof per face: the faces' own objects carry one dof each, nothing else does. -/
theorem raviartThomas_layout {fd : DofLayout} {c : Hypercube} (hc : c ≠ .interval)
    (hcount : ∀ k, fd.countOf k =
      ((List.range (c.dim + 1)).map fun k => if k + 1 == c.dim then (1 : Int) else 0).getD k 0) :
    fd.cellPrefix c 4 = c.facesPerCell ∧ fd.cellPrefix c (c.dim - 1) = 0 ∧
      fd.countOf (c.dim - 1) = 1 ∧ ∀ κ < c.dim, 0 < fd.countOf κ → κ = c.dim - 1 := by
  cases c with
  | interval => exact absurd rfl hc
  | square | cube =>
    refine ⟨?_, ?_, ?_, fun κ hκ hpos => ?_⟩
    · simp [DofLayout.cellPrefix, List.range_succ, hcount, Hypercube.objectsPerCell, Hypercube.dim,
        Hypercube.facesPerCell]
    · simp [DofLayout.cellPrefix, List.range_succ, hcount, Hypercube.objectsPerCell, Hypercube.dim]
    · simp [hcount, Hypercube.dim, List.range_succ]
    · rw [hcount] at hpos
      simp only [Hypercube.dim] at hκ hpos ⊢
      interval_cases κ <;> simp [List.range_succ] at hpos ⊢

theorem supportPoints_raviartThomas (s : Store) :
    (Element.member .raviartThomas s).supportPoints =
      (List.range s.dofsPerCell.toNat).mapM (raviartThomasSupportPoint s.cell) := by
  rw [supportPoints]

/-- **The Raviart–Thomas elements place their one face dof at the centre of every face.** -/
theorem raviartThomas_faceFramed {dim degree : Int} {e : Element}
    (h : raviartThomas dim degree = .ok e) : ∃ P, e.supportPoints = .ok P ∧ FaceFramed e P := by
  unfold raviartThomas at h
  rw [ite_report_bind_eq_ok, ite_report_bind_eq_ok, bind_eq_ok] at h
  obtain ⟨-, hdim, c, hc, h⟩ := h
  rw [bind_eq_ok] at h
  obtain ⟨fd, hfd, h⟩ := h
  rw [bind_eq_ok] at h
  obtain ⟨s, hs, h⟩ := h
  cases h
  have hcdim : (c.dim : Int) = dim := Hypercube.dim_of_ofDim? (mapError_eq_ok.1 hc)
  rw [mapError_eq_ok, ← hcdim] at hfd
  obtain ⟨hwf, rfl, heo, hcount⟩ := Store.ofDefinition_of_counts hfd hs
  have hne : s.cell ≠ .interval := by
    intro h1
    rw [h1] at hcdim
    simp only [Hypercube.dim] at hcdim
    subst hcdim
    simp at hdim
  obtain ⟨hpre4, hpre0, hcnt1, honly⟩ := raviartThomas_layout hne hcount
  obtain ⟨hobjs, hself⟩ := Hypercube.faceObject_self hne
  have hfit : s.layout.cellPrefix s.cell 4 < 2 ^ 63 := by
    have := s.cell.dim_le
    rw [hpre4, Hypercube.facesPerCell]
    omega
  have hdofs := (hwf.layout_wf.exact hfit).2.1
  -- the support point of the dof of face `i` is the centre of face `i`
  have hP : (List.range s.dofsPerCell.toNat).mapM (raviartThomasSupportPoint s.cell) =
      .ok ((List.range s.cell.facesPerCell).map fun i =>
        s.cell.onFace i (if (i : Int) % 2 == 1 then 1 else 0)
          (List.replicate (s.cell.dim - 1) 0.5) 0) := by
    rw [Store.dofsPerCell, hdofs, hpre4, Int.toNat_natCast]
    refine mapM_eq_ok_map fun i hi => ?_
    rw [raviartThomasSupportPoint, liftCell,
      s.cell.faceToCellPoint_eq_onFace (List.mem_range.1 hi) (by simp)]
    rfl
  refine ⟨_, (supportPoints_raviartThomas s).trans hP, fun j hj => ?_⟩
  -- the only face dof is the one dof of the face itself
  obtain ⟨κ, hκ, o, ho, e, he, hj⟩ := hwf.exists_faceObject_dof hfit hj
  obtain rfl := honly κ hκ (by omega)
  rw [hcnt1] at he hj
  obtain rfl : e = 0 := by omega
  obtain rfl : o = 0 := by omega
  refine ⟨List.replicate (s.cell.dim - 1) 0.5, List.length_replicate, fun f hf => ⟨f, ?_, ?_⟩⟩
  · have hk := hwf.faceToCellIndex_objectwise heo hfit hκ ho (e := 0) (by rw [hcnt1]; decide) hf
      (hself f hf)
    rw [hcnt1, ← hj, hpre0] at hk
    simpa using hk
  · have hf' : f < s.cell.facesPerCell := hf
    rw [getD_map_range hf']
    exact s.cell.faceToCellPoint_eq_onFace hf (by simp)

/-- The given elements of a composite, those that are there, are the bases it checked. -/
theorem filterMap_store_of_specs :
    ∀ {bases : List (Option Element × Int)} {checked : List (Store × Nat)},
    bases.map (fun q => (q.1.map store, q.2)) = asSpecs checked →
      (bases.filterMap (·.1)).map store = checked.map Prod.fst
  | [], [], _ => rfl
  | (some b, m) :: bases, (S, n) :: checked, h => by
    simp only [asSpecs, List.map_cons, List.cons.injEq, Prod.mk.injEq, Option.map_some,
      Option.some.injEq] at h
    show (b :: bases.filterMap (·.1)).map store = _
    rw [List.map_cons, List.map_cons, h.1.1, filterMap_store_of_specs h.2]
  | (none, _) :: _, _ :: _, h => by simp [asSpecs] at h
  | [], _ :: _, h | _ :: _, [], h => by simp [asSpecs] at h

theorem supportPoints_composite (s : Store) (p : Packing) (els : List Element) (ms : List Nat) :
    (Element.composite s p els ms).supportPoints =
      els.mapM supportPoints >>= fun basePoints =>
        (List.range s.dofsPerCell.toNat).mapM fun (i : Nat) =>
          s.systemToBaseIndex i >>= fun bi => pure ((basePoints.getD bi.base []).getD bi.index []) := by
  rw [supportPoints]

/-- **The support points of a composite are its bases'.** When every base element has its
support points and every cell dof has a place, the composite has its support points, and the one
of cell dof `i`, placed at dof `k` of base `b`, is base `b`'s support point of `k`. -/
theorem composite_supportPoints_place (p : Packing) (ms : List Nat) {s : Store}
    {els : List Element}
    (hcells : ∀ i : Nat, (i : Int) < s.dofsPerCell → ∃ x, s.systemToBaseIndex i = .ok x)
    (hels : ∀ b ∈ els, ∃ P, b.supportPoints = .ok P) :
    ∃ P, (Element.composite s p els ms).supportPoints = .ok P ∧
      ∀ (i : Nat) (x : BaseIndex), s.systemToBaseIndex i = .ok x → x.base < els.length →
        ∀ Pb, (els.getD x.base default).supportPoints = .ok Pb →
          P.getD i [] = Pb.getD x.index [] := by
  have hBP : els.mapM supportPoints = .ok (els.map fun b => okValue b.supportPoints) := by
    refine mapM_eq_ok_map fun b hb => ?_
    obtain ⟨P, hP⟩ := hels b hb
    rw [hP]
    rfl
  set BP := els.map fun b => okValue b.supportPoints
  set point := fun (i : Nat) => s.systemToBaseIndex i >>= fun bi =>
    (pure ((BP.getD bi.base []).getD bi.index []) : Outcome (List Float))
  have hpoint : ∀ (i : Nat) x, s.systemToBaseIndex i = .ok x →
      point i = .ok ((BP.getD x.base []).getD x.index []) := by
    intro i x hx
    simp only [point, hx]
    rfl
  have hP : (List.range s.dofsPerCell.toNat).mapM point =
      .ok ((List.range s.dofsPerCell.toNat).map fun i => okValue (point i)) := by
    refine mapM_eq_ok_map fun i hi => ?_
    obtain ⟨x, hx⟩ := hcells i (by have := List.mem_range.1 hi; omega)
    rw [hpoint i x hx]
    rfl
  refine ⟨_, by rw [supportPoints_composite, hBP]; exact hP, fun i x hsys hb Pb hPb => ?_⟩
  have hilt : i < s.dofsPerCell.toNat := by have := (Store.systemToBaseIndex_lt hsys).2; omega
  have hBPb : BP.getD x.base [] = Pb := by
    rw [List.getD_eq_getElem?_getD, List.getElem?_map, List.getElem?_eq_getElem hb,
      Option.map_some, Option.getD_some, ← List.getD_eq_getElem _ default, hPb]
    rfl
  rw [getD_map_range hilt, hpoint i _ hsys, hBPb]
  rfl

/-- **A composite places its face dofs as its bases do.** When every base element has its support
points and places each face dof at one frame point on every face, so does the composite: face dof
`j` lies, on every face, where its base's face dof lies. -/
theorem compose_faceFramed {p : Packing} {bases : List (Option Element × Int)} {e : Element}
    (h : compose p bases = .ok e)
    (hbases : ∀ x ∈ bases, ∀ b ∈ x.1,
      b.store.Built ∧ ∃ P, b.supportPoints = .ok P ∧ FaceFramed b P) :
    ∃ P, e.supportPoints = .ok P ∧ FaceFramed e P := by
  unfold compose at h
  rw [bind_eq_ok] at h
  obtain ⟨s, hs, h⟩ := h
  cases h
  obtain ⟨r⟩ := Store.composite_eq_ok hs
  have hels := filterMap_store_of_specs (checkBases_eq_ok r.checkBases_eq).1
  set els := bases.filterMap (·.1)
  -- every checked base is the store of a given element, which is built and placed
  have hgiven : ∀ b ∈ els, b.store.Built ∧ ∃ P, b.supportPoints = .ok P ∧ FaceFramed b P := by
    intro b hb
    obtain ⟨x, hx, hbx⟩ := List.mem_filterMap.1 hb
    exact hbases x hx b hbx
  have hwf : ∀ x ∈ r.bases, x.1.WellFormed := by
    intro x hx
    obtain ⟨b, hb, hbx⟩ := List.mem_map.1 (hels ▸ List.mem_map_of_mem (f := Prod.fst) hx)
    exact hbx ▸ (hgiven b hb).1.wellFormed
  have hlen : els.length = r.bases.length := by
    simpa using congrArg List.length hels
  have hstore : ∀ b < r.bases.length, (els.getD b default).store = (r.bases.getD b default).1 := by
    intro b hb
    have hb' : b < els.length := by omega
    have hget := congrArg (fun l => l[b]?) hels
    simp only [List.getElem?_map, List.getElem?_eq_getElem hb', List.getElem?_eq_getElem hb,
      Option.map_some, Option.some.injEq] at hget
    rw [List.getD_eq_getElem _ _ hb', List.getD_eq_getElem _ _ hb]
    exact hget
  have hcells : ∀ i : Nat, (i : Int) < s.dofsPerCell → ∃ x, s.systemToBaseIndex i = .ok x := by
    intro i hi
    obtain ⟨x, -, hx⟩ := (r.systemToBaseIndex_numbering hwf).mapsTo i (Int.natCast_nonneg i) hi
    exact ⟨x, hx⟩
  obtain ⟨P, hP, hplace⟩ := composite_supportPoints_place p (bases.map (·.2.toNat)) hcells
    fun b hb => (hgiven b hb).2.imp fun _ h => h.1
  refine ⟨P, hP, fun j hj => ?_⟩
  -- face dof `j` is a face dof of one copy of one base, which places it
  obtain ⟨x, hx, hjx⟩ := (r.faceSystemToBaseIndex_numbering hwf).mapsTo j (Int.natCast_nonneg j) hj
  obtain ⟨hb, -, hk⟩ := (mem_blockPlaces _ _).1 hx
  have hel : els.getD x.base default ∈ els := getD_mem_of_lt default (by omega)
  obtain ⟨-, Pb, hPb, hFb⟩ := hgiven _ hel
  have hSel := hstore x.base hb
  obtain ⟨-, hcell⟩ := r.base_wellFormed hwf hb
  obtain ⟨ξ, hξlen, hξ⟩ := hFb x.index (by rw [hSel]; omega)
  rw [hSel, hcell, ← r.cell_store] at hξlen hξ
  refine ⟨ξ, hξlen, fun f hf => ?_⟩
  obtain ⟨i, k, hi, hk', hsys⟩ := r.faceToCellIndex_place hwf (by rw [← r.cell_store]; exact hf) hjx
  obtain ⟨k₂, hk₂, hpt⟩ := hξ f hf
  rw [hk', Except.ok.injEq] at hk₂
  subst hk₂
  refine ⟨i, hi, ?_⟩
  -- the composite's support point of `i` is its base's support point of `k`
  rw [hplace i _ hsys (by dsimp only; omega) Pb hPb]
  exact hpt

/-- Reading every face dof back off face `0` in its frame gives the frame point it has on every
face. -/
theorem faceSupportPoints_of_faceFramed {e : Element} {P : List (List Float)}
    (hP : e.supportPoints = .ok P) (hF : FaceFramed e P) :
    ∃ Q, e.faceSupportPoints = .ok Q ∧ ∀ j : Nat, (j : Int) < e.store.layout.dofsPerFace →
      ∀ f < e.store.cell.facesPerCell, ∃ k : Nat, e.store.faceToCellIndex j f = .ok k ∧
        e.store.cell.faceToCellPoint f (Q.getD j []) = .ok (P.getD k []) := by
  by_cases h0 : e.store.layout.dofsPerFace = 0
  · refine ⟨[], ?_, fun j hj => absurd hj (by omega)⟩
    simp [faceSupportPoints, h0]
    rfl
  obtain ⟨n, u, v, hax, htan⟩ := e.store.cell.faceAxes_zero
  have hfsp : e.faceSupportPoints = (List.range e.store.layout.dofsPerFace.toNat).mapM fun (j : Nat) =>
      e.store.faceToCellIndex j 0 >>= fun k => pure (((List.range (e.store.cell.dim - 1)).map
        fun a => ((a + 1 : Nat) : Int)).map fun t => (P.getD k []).getD t.toNat 0) := by
    simp only [faceSupportPoints, h0, hP, hax, liftCell, Except.mapError, beq_iff_eq, if_false]
    simp only [bind, Except.bind, htan]
  have hpos : 0 < e.store.cell.facesPerCell := by cases e.store.cell <;> decide
  set read : Nat → Outcome (List Float) := fun j => e.store.faceToCellIndex j 0 >>= fun k =>
    pure (((List.range (e.store.cell.dim - 1)).map fun a => ((a + 1 : Nat) : Int)).map
      fun t => (P.getD k []).getD t.toNat 0) with hread_def
  -- each face dof is read back at the frame point it has on every face
  have hread : ∀ j : Nat, (j : Int) < e.store.layout.dofsPerFace → ∃ ξ, read j = .ok ξ ∧
      ∀ f < e.store.cell.facesPerCell, ∃ k : Nat, e.store.faceToCellIndex j f = .ok k ∧
        e.store.cell.faceToCellPoint f ξ = .ok (P.getD k []) := by
    intro j hj
    obtain ⟨ξ, hlen, hξ⟩ := hF j hj
    obtain ⟨k₀, hk₀, hpt₀⟩ := hξ 0 hpos
    rw [e.store.cell.faceToCellPoint_eq_onFace hpos (by omega), Except.ok.injEq] at hpt₀
    rw [Nat.cast_zero] at hk₀
    refine ⟨ξ, ?_, hξ⟩
    simp only [hread_def, hk₀, bind, Except.bind, pure, Except.pure, Except.ok.injEq]
    rw [← hpt₀, List.map_map]
    simp only [Function.comp_def, Int.toNat_natCast]
    exact e.store.cell.frame_onFace_zero _ hlen 0 0
  refine ⟨_, hfsp.trans (mapM_eq_ok_map (g := fun j => okValue (read j)) fun j hj => ?_),
    fun j hj f hf => ?_⟩
  · obtain ⟨ξ, hξ, -⟩ := hread j (by have := List.mem_range.1 hj; omega)
    rw [hξ]
    rfl
  · obtain ⟨ξ, hξ, hpts⟩ := hread j hj
    have hjn : j < e.store.layout.dofsPerFace.toNat := by omega
    rw [getD_map_range hjn, hξ]
    exact hpts f hf

/-- The elements the families make, `FE_Q` while its `(N+1)^d` dofs fit a machine word, and the
systems of them, nested to any depth under either packing. -/
inductive FromFamilies : Element → Prop
  | continuous {dim degree : Int} {e : Element}
      (h : FiniteElements.Family.continuous dim degree = .ok e)
      (hfit : (degree.toNat + 1) ^ dim.toNat < 2 ^ 63) : FromFamilies e
  | discontinuous {dim degree : Int} {e : Element}
      (h : FiniteElements.Family.discontinuous dim degree = .ok e) : FromFamilies e
  | raviartThomas {dim degree : Int} {e : Element}
      (h : FiniteElements.Family.raviartThomas dim degree = .ok e) : FromFamilies e
  | system {p : Packing} {bases : List (Option Element × Int)} {e : Element}
      (hbases : ∀ x ∈ bases, ∀ b ∈ x.1, FromFamilies b) (h : compose p bases = .ok e) :
      FromFamilies e

/-- **Every element of the families places its face dofs alike on every face**, by induction on
how it was made: each family directly, a system through its bases. -/
theorem FromFamilies.faceFramed {e : Element} (h : FromFamilies e) :
    e.store.Built ∧ ∃ P, e.supportPoints = .ok P ∧ FaceFramed e P := by
  induction h with
  | continuous h hfit => exact ⟨Family.continuous_built h, continuous_faceFramed h hfit⟩
  | discontinuous h => exact ⟨Family.discontinuous_built h, discontinuous_faceFramed h⟩
  | raviartThomas h => exact ⟨Family.raviartThomas_built h, raviartThomas_faceFramed h⟩
  | system _ h ih =>
    exact ⟨compose_built (fun x hx b hb => (ih x hx b hb).1) h, compose_faceFramed h ih⟩

/-- **Face support points hold on every face.** For every element of the families, and every
system of them, the support points and the face support points exist, and on every face `f` the
support point of the cell dof of face dof `j` is the point of face `f` with face dof `j`'s face
support point as its frame coordinates. -/
theorem faceToCellPoint_faceSupportPoints {e : Element} (h : FromFamilies e) :
    ∃ P Q, e.supportPoints = .ok P ∧ e.faceSupportPoints = .ok Q ∧
      ∀ f < e.store.cell.facesPerCell, ∀ j : Nat, (j : Int) < e.store.layout.dofsPerFace →
        ∃ k : Nat, e.store.faceToCellIndex j f = .ok k ∧
          e.store.cell.faceToCellPoint f (Q.getD j []) = .ok (P.getD k []) := by
  obtain ⟨-, P, hP, hF⟩ := h.faceFramed
  obtain ⟨Q, hQ, hpts⟩ := faceSupportPoints_of_faceFramed hP hF
  exact ⟨P, Q, hP, hQ, fun f hf j hj => hpts j hj f hf⟩

/-- A plane system: the biquadratic continuous element beside the lowest-order Raviart–Thomas
element, blocked. -/
def planeSystem : Element :=
  okValue (compose .blocked
    [(some (okValue (FiniteElements.Family.continuous 2 2)), 1),
      (some (okValue (FiniteElements.Family.raviartThomas 2 0)), 1)])

theorem planeSystem_faceSupportPoints :
    FromFamilies planeSystem ∧ ∃ P Q, planeSystem.supportPoints = .ok P ∧
      planeSystem.faceSupportPoints = .ok Q ∧
      ∀ f < planeSystem.store.cell.facesPerCell, ∀ j : Nat,
        (j : Int) < planeSystem.store.layout.dofsPerFace → ∃ k : Nat,
          planeSystem.store.faceToCellIndex j f = .ok k ∧
            planeSystem.store.cell.faceToCellPoint f (Q.getD j []) = .ok (P.getD k []) := by
  have hq : FromFamilies (okValue (FiniteElements.Family.continuous 2 2)) :=
    .continuous (eq_ok_okValue (by decide)) (by decide)
  have hrt : FromFamilies (okValue (FiniteElements.Family.raviartThomas 2 0)) :=
    .raviartThomas (eq_ok_okValue (by decide))
  have hsys : FromFamilies planeSystem := .system (by simp [hq, hrt]) (eq_ok_okValue (by decide))
  exact ⟨hsys, faceToCellPoint_faceSupportPoints hsys⟩

end FiniteElements.Element
