import FiniteElements.Proofs.Composite.Nesting.Inner

/-!
# The layout data of a nested composite and of its flattening

Take a composite `I` of bases `S₁`, a multiplicity `m ≥ 1` and more bases `S₂`. The nested
composite of `(I, m) :: S₂` and the flat one of `S₁` repeated `m` times, then `S₂`, accept their
bases together (`checkBases_nested_iff_flat`) and sum them to the same layout data: dimension,
dof counts per object kind, components and degree.

Every sum is over the stores of the blocks (`stores_blocksOf`): `m` copies of `I` against `m`
copies of the stores of `S₁`'s blocks. `I` has the components of its blocks exactly
(`summedComponents_nested_flat`); its dof counts are their sums wrapped to a machine word, which
the flat composite wraps again, so the two counts agree as machine words
(`summedCounts_nested_flat`). Its degree is the highest of its bases', and taking the highest is
idempotent, so `m` copies of `S₁` have that degree as well (`maxDegree_nested_flat`).
-/

namespace FiniteElements.Element

set_option autoImplicit false

open FiniteElements.Cell FiniteElements.Numeric

/-! ### Reading the blocks through their stores -/

section Stores

variable (bases : List (Store × Nat))

theorem mapM_blocksOf {ε β : Type} (g : Store → Except ε β) :
    (blocksOf bases).mapM (fun blk => g blk.store) =
      (bases.flatMap fun x => List.replicate x.2 x.1).mapM g := by
  rw [← stores_blocksOf, List.mapM_map]
  rfl

theorem all_blocksOf (g : Store → Bool) :
    (blocksOf bases).all (fun blk => g blk.store) =
      (bases.flatMap fun x => List.replicate x.2 x.1).all g := by
  rw [← stores_blocksOf, List.all_map]
  rfl

theorem any_blocksOf (g : Store → Bool) :
    (blocksOf bases).any (fun blk => g blk.store) =
      (bases.flatMap fun x => List.replicate x.2 x.1).any g := by
  rw [← stores_blocksOf, List.any_map]
  rfl

end Stores

section Copies

variable {α : Type} (g : α → Bool) {m : Nat} (hm : 0 < m)
include hm

theorem all_replicate_append (a : α) (R : List α) :
    (List.replicate m a ++ R).all g = (g a && R.all g) := by
  simp [List.all_replicate, hm.ne']

theorem all_flatten_replicate_append (L R : List α) :
    ((List.replicate m L).flatten ++ R).all g = (L.all g && R.all g) := by
  simp [List.all_flatten, List.all_replicate, hm.ne']

theorem any_replicate_append (a : α) (R : List α) :
    (List.replicate m a ++ R).any g = (g a || R.any g) := by
  simp [List.any_replicate, hm.ne']

theorem any_flatten_replicate_append (L R : List α) :
    ((List.replicate m L).flatten ++ R).any g = (L.any g || R.any g) := by
  simp [List.any_flatten, List.any_replicate, hm.ne']

end Copies

/-! ### Degrees -/

section Degrees

/-- Taking the highest degree of bases after a first value. -/
theorem foldl_max_degree (L : List (Store × Nat)) (d e : Int) :
    L.foldl (fun d x => max d x.1.layout.degree) (max d e) =
      max d (L.foldl (fun d x => max d x.1.layout.degree) e) := by
  induction L generalizing e with
  | nil => rfl
  | cons x L ih => simp only [List.foldl_cons, max_assoc, ih]

/-- Taking the highest degree of the same bases twice changes nothing. -/
theorem foldl_degree_idem (L : List (Store × Nat)) (d : Int) :
    L.foldl (fun d x => max d x.1.layout.degree) (L.foldl (fun d x => max d x.1.layout.degree) d) =
      L.foldl (fun d x => max d x.1.layout.degree) d := by
  set D := L.foldl (fun d x => max d x.1.layout.degree) d
  -- the result is at least the first value
  have hD : max D d = D := by
    have h := foldl_max_degree L d d
    rw [max_self] at h
    rw [max_comm]
    exact h.symm
  calc L.foldl (fun d x => max d x.1.layout.degree) D
      = L.foldl (fun d x => max d x.1.layout.degree) (max D d) := by rw [hD]
    _ = max D D := foldl_max_degree L D d
    _ = D := max_self D

theorem foldl_degree_flatten_replicate (L : List (Store × Nat)) {m : Nat} (hm : 0 < m) (d : Int) :
    ((List.replicate m L).flatten).foldl (fun d x => max d x.1.layout.degree) d =
      L.foldl (fun d x => max d x.1.layout.degree) d := by
  induction m with
  | zero => omega
  | succ k ih =>
    rcases Nat.eq_zero_or_pos k with rfl | hk
    · simp
    · rw [List.replicate_succ', List.flatten_append, List.foldl_append, ih hk,
        List.flatten_singleton, foldl_degree_idem]

theorem maxDegree_nonneg (bases : List (Store × Nat)) : 0 ≤ maxDegree bases := by
  have h := foldl_max_degree bases 0 0
  rw [max_self] at h
  unfold maxDegree
  rw [h]
  exact le_max_left 0 _

end Degrees

/-! ### Checking the bases -/

/-- **Bases handed over as specs pass the checks** exactly when each has a copy, has the first
base's dimension and, interleaved, is numbered object kind by object kind. -/
theorem checkBases_asSpecs_iff {p : Packing} {bases : List (Store × Nat)} :
    checkBases p (asSpecs bases) = .ok bases ↔ ∀ x ∈ bases, 0 < x.2 ∧
      x.1.layout.dim = leadDim bases ∧ (p = .interleaved → x.1.entityOrdered = true) :=
  ⟨fun h => (checkBases_eq_ok h).2, fun h => checkBases_asSpecs (fun x hx => (h x hx).1)
    (fun x hx => (h x hx).2.1) fun hp x hx => (h x hx).2.2 hp⟩

namespace CompositeRun

variable {p : Packing} {specs : List (Option Store × Int)} {E : Store}
  (r : CompositeRun p specs E)

theorem bases_ne_nil : r.bases ≠ [] := by
  intro h
  have hc := r.cell_eq
  rw [h] at hc
  simp [leadDim, Hypercube.ofDim?] at hc

theorem dim_eq_leadDim : E.layout.dim = leadDim r.bases := by
  obtain ⟨c, -, hdim, -⟩ := DofLayout.wf_of_ofCounts? r.layout_eq
  rw [r.layout_store, hdim]

theorem degree_eq_maxDegree : E.layout.degree = maxDegree r.bases := by
  obtain ⟨c, -, -, -, -, -, hdeg⟩ := DofLayout.wf_of_ofCounts? r.layout_eq
  rw [r.layout_store, hdeg]

include r in
/-- A composite without a face map, as every interleaved one, is numbered object kind by object
kind. -/
theorem entityOrdered_of_interleaved (hp : p = .interleaved) : E.entityOrdered = true := by
  have hnb : p ≠ .blocked := by
    rw [hp]
    exact fun h => nomatch h
  rw [r.entityOrdered_store, (systemTables_eq_ok r.tables_eq).2.2.2.2 hnb]
  rfl

end CompositeRun

/-! ### The nested composite and its flattening -/

section Nested

variable {p : Packing} {S₁ : List (Option Store × Int)} {I : Store} (rI : CompositeRun p S₁ I)
  {m : Nat} (S₂ : List (Store × Nat))

@[simp] theorem leadDim_cons (x : Store × Nat) (bases : List (Store × Nat)) :
    leadDim (x :: bases) = x.1.layout.dim :=
  rfl

theorem leadDim_nested : leadDim ((I, m) :: S₂) = leadDim rI.bases :=
  rI.dim_eq_leadDim

theorem leadDim_flat (hm : 0 < m) :
    leadDim ((List.replicate m rI.bases).flatten ++ S₂) = leadDim rI.bases := by
  obtain ⟨k, rfl⟩ := Nat.exists_eq_add_of_lt hm
  obtain ⟨x, xs, hx⟩ := List.exists_cons_of_ne_nil rI.bases_ne_nil
  rw [hx]
  simp [leadDim, List.replicate_succ]

/-- **A nested composite accepts its bases exactly when its flattening does**: `I` passes every
check its bases passed. -/
theorem checkBases_nested_iff_flat (hm : 0 < m) :
    checkBases p (asSpecs ((I, m) :: S₂)) = .ok ((I, m) :: S₂) ↔
      checkBases p (asSpecs ((List.replicate m rI.bases).flatten ++ S₂)) =
        .ok ((List.replicate m rI.bases).flatten ++ S₂) := by
  have hI := (checkBases_eq_ok rI.checkBases_eq).2
  rw [checkBases_asSpecs_iff, checkBases_asSpecs_iff, leadDim_nested rI, leadDim_flat rI S₂ hm,
    List.forall_mem_cons, List.forall_mem_append]
  constructor
  · rintro ⟨-, h₂⟩
    exact ⟨fun x hx => hI x (mem_of_mem_flatten_replicate hx), h₂⟩
  · rintro ⟨-, h₂⟩
    exact ⟨⟨hm, rI.dim_eq_leadDim, CompositeRun.entityOrdered_of_interleaved rI⟩, h₂⟩

/-- **The components of a nested composite are those of its flattening**: a copy of `I` has the
components of all of `I`'s blocks. -/
theorem summedComponents_nested_flat :
    summedComponents (blocksOf ((I, m) :: S₂)) =
      summedComponents (blocksOf ((List.replicate m rI.bases).flatten ++ S₂)) := by
  have hI : I.components = (rI.bases.map fun x => (x.2 : Int) * x.1.components).sum := by
    rw [rI.components_store, summedComponents, sum_blocksOf]
  unfold summedComponents
  rw [sum_blocksOf, sum_blocksOf, List.map_cons, List.sum_cons, List.map_append, List.sum_append,
    sum_map_flatten_replicate, hI, nsmul_eq_mul]

/-- **The dof counts of a nested composite are those of its flattening** as machine words: `I`
counts its blocks' dofs wrapped to a word, and wrapping sees a count only modulo `2^64`. -/
theorem summedCounts_nested_flat (hm : 0 < m) :
    summedCounts (blocksOf ((I, m) :: S₂)) (leadDim ((I, m) :: S₂)) =
      summedCounts (blocksOf ((List.replicate m rI.bases).flatten ++ S₂))
        (leadDim ((List.replicate m rI.bases).flatten ++ S₂)) := by
  rw [leadDim_nested rI, leadDim_flat rI S₂ hm]
  unfold summedCounts
  refine List.map_congr_left fun k hk => wrapWord_congr ?_
  have hk : k ≤ rI.cell.dim := by
    have := List.mem_range.1 hk
    have := rI.layout_wf.2.1
    omega
  have hI : I.layout.countOf k =
      wrapWord (rI.bases.map fun x => (x.2 : Int) * x.1.layout.countOf k).sum := by
    rw [rI.layout_store, rI.layout_wf.2.2 k hk, sum_blocksOf _ fun s => s.layout.countOf k]
  rw [sum_blocksOf _ fun s => s.layout.countOf k, sum_blocksOf _ fun s => s.layout.countOf k,
    List.map_cons, List.sum_cons, List.map_append, List.sum_append, sum_map_flatten_replicate, hI,
    nsmul_eq_mul, Int.add_emod, Int.mul_emod, wrapWord_emod, ← Int.mul_emod, ← Int.add_emod]

/-- **The degree of a nested composite is that of its flattening**: the highest degree of `I`'s
bases, taken once or `m` times. -/
theorem maxDegree_nested_flat (hm : 0 < m) :
    maxDegree ((I, m) :: S₂) = maxDegree ((List.replicate m rI.bases).flatten ++ S₂) := by
  have hmax : max 0 (maxDegree rI.bases) = maxDegree rI.bases :=
    max_eq_right (maxDegree_nonneg rI.bases)
  unfold maxDegree
  rw [List.foldl_cons, List.foldl_append, foldl_degree_flatten_replicate _ hm,
    rI.degree_eq_maxDegree]
  exact congrArg (S₂.foldl _) hmax

end Nested

end FiniteElements.Element
