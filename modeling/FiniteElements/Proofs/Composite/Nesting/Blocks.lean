import FiniteElements.Proofs.Composite.Counting

/-!
# The blocks of a nested composite and of its flattening

A composite can be a base of another one. The nested composite of `(I, m) :: S₂` takes `m` copies
of a composite `I` of bases `S₁`, then the bases `S₂`; its flattening takes the bases of `I`
themselves, `S₁` repeated `m` times, then `S₂`. Let `n₁` be the number of blocks of `I`. Block by
block:

* block `t < m` of the nested composite is copy `t` of `I`; its components and cell dofs start `t`
  times those of `I` in (`store_nested_copy`, `compOffset_nested_copy`,
  `cellOffset_nested_copy`);
* in the flattening, copy `t` of `I` is the run of blocks `t · n₁ + β`, `β < n₁`: block
  `t · n₁ + β` is block `β` of `I`, moved past `t` copies of `I` (`store_flat_copy`,
  `compOffset_flat_copy`, `cellOffset_flat_copy`);
* the blocks of `S₂` follow, block `m + j` of the nested composite being block `m · n₁ + j` of the
  flattening (`store_rest`, `compOffset_rest`, `cellOffset_rest`).

Everything follows from the stores of the blocks, each base repeated as often as its multiplicity
(`stores_blocksOf`): a block's offsets are sums over the stores before it, and the flattening
counts the stores of `I`'s blocks where the nested composite counts `I` once, which is the same
for the components and the cell dofs since `I` has those of its blocks.

## Main results

* `stores_blocksOf`: the stores of the blocks.
* `sum_range_flat_copy`, `sum_range_nested_copy`, `sum_range_rest`: what comes before a block.
-/

namespace FiniteElements.Element

set_option autoImplicit false

section Lists

variable {α : Type}

theorem length_flatten_replicate (L : List α) (t : Nat) :
    ((List.replicate t L).flatten).length = t * L.length := by
  simp

/-- The first `t` copies of a list, and then a prefix of the next copy. -/
theorem take_flatten_replicate_append (L R : List α) {m t β : Nat} (ht : t < m)
    (hβ : β ≤ L.length) :
    ((List.replicate m L).flatten ++ R).take (t * L.length + β) =
      (List.replicate t L).flatten ++ L.take β := by
  obtain ⟨k, rfl⟩ := Nat.exists_eq_add_of_lt ht
  rw [show t + k + 1 = t + (1 + k) by omega, List.replicate_add, List.flatten_append,
    List.append_assoc, List.replicate_add, List.flatten_append, List.replicate_one,
    List.flatten_singleton, List.append_assoc, ← length_flatten_replicate,
    List.take_length_add_append, List.take_append_of_le_length hβ]

/-- All `m` copies of a list, and then a prefix of what follows. -/
theorem take_flatten_replicate_append_rest (L R : List α) (m j : Nat) :
    ((List.replicate m L).flatten ++ R).take (m * L.length + j) =
      (List.replicate m L).flatten ++ R.take j := by
  rw [← length_flatten_replicate, List.take_length_add_append]

/-- Position `β` of copy `t` of a list. -/
theorem getD_flatten_replicate_append (L R : List α) (d : α) {m t β : Nat} (ht : t < m)
    (hβ : β < L.length) :
    ((List.replicate m L).flatten ++ R).getD (t * L.length + β) d = L.getD β d := by
  rw [List.getD_eq_getElem?_getD, List.getD_eq_getElem?_getD,
    ← List.getElem?_take_of_lt (show t * L.length + β < t * L.length + (β + 1) by omega),
    take_flatten_replicate_append L R ht hβ, List.getElem?_append_right (by simp),
    length_flatten_replicate, Nat.add_sub_cancel_left, List.getElem?_take_of_lt (by omega)]

/-- Position `m · |L| + j` of `m` copies of a list and then more: position `j` of the rest. -/
theorem getD_flatten_replicate_append_rest (L R : List α) (d : α) (m j : Nat) :
    ((List.replicate m L).flatten ++ R).getD (m * L.length + j) d = R.getD j d := by
  rw [List.getD_append_right _ _ _ _ (by rw [length_flatten_replicate]; omega),
    length_flatten_replicate, Nat.add_sub_cancel_left]

theorem getD_replicate_append (a : α) (R : List α) (d : α) {m t : Nat} (ht : t < m) :
    (List.replicate m a ++ R).getD t d = a := by
  rw [List.getD_append _ _ _ _ (by simpa using ht), List.getD_eq_getElem _ _ (by simpa using ht),
    List.getElem_replicate]

theorem getD_replicate_append_rest (a : α) (R : List α) (d : α) (m j : Nat) :
    (List.replicate m a ++ R).getD (m + j) d = R.getD j d := by
  rw [List.getD_append_right _ _ _ _ (by simp), List.length_replicate, Nat.add_sub_cancel_left]

theorem mem_of_mem_flatten_replicate {L : List α} {m : Nat} {x : α}
    (h : x ∈ (List.replicate m L).flatten) : x ∈ L := by
  obtain ⟨l, hl, hx⟩ := List.mem_flatten.1 h
  rwa [List.eq_of_mem_replicate hl] at hx

theorem sum_map_flatten_replicate {M : Type} [AddCommMonoid M] (f : α → M) (L : List α) (t : Nat) :
    (((List.replicate t L).flatten).map f).sum = t • (L.map f).sum := by
  simp [List.map_flatten, List.sum_flatten, List.map_replicate]

end Lists

/-- **The stores of the blocks**: each base, as often as its multiplicity. -/
theorem stores_blocksOf (bases : List (Store × Nat)) :
    (blocksOf bases).map (·.store) = bases.flatMap fun x => List.replicate x.2 x.1 :=
  map_store_blocksOf bases fun s => s

theorem length_stores (bases : List (Store × Nat)) :
    (bases.flatMap fun x => List.replicate x.2 x.1).length = (blocksOf bases).length := by
  rw [← stores_blocksOf, List.length_map]

theorem sum_stores (bases : List (Store × Nat)) (f : Store → Nat) :
    ((bases.flatMap fun x => List.replicate x.2 x.1).map f).sum =
      ((blocksOf bases).map fun blk => f blk.store).sum := by
  rw [← stores_blocksOf, List.map_map]
  rfl

theorem store_getD_blocksOf_eq (bases : List (Store × Nat)) (β : Nat) :
    ((blocksOf bases).getD β default).store =
      (bases.flatMap fun x => List.replicate x.2 x.1).getD β default := by
  rw [← stores_blocksOf, List.getD_eq_getElem?_getD, List.getD_eq_getElem?_getD,
    List.getElem?_map]
  cases (blocksOf bases)[β]? <;> rfl

/-- What the blocks before `β` add up to, counted store by store. -/
theorem sum_range_store (bases : List (Store × Nat)) (f : Store → Nat) {β : Nat}
    (hβ : β ≤ (blocksOf bases).length) :
    ((List.range β).map fun β' => f ((blocksOf bases).getD β' default).store).sum =
      (((bases.flatMap fun x => List.replicate x.2 x.1).take β).map f).sum := by
  rw [map_take_eq_map_range _ f (by rwa [length_stores])]
  simp only [store_getD_blocksOf_eq]

section Nested

variable (I : Store) (S₁ S₂ : List (Store × Nat)) (m : Nat)

theorem flatMap_nested :
    (((I, m) :: S₂).flatMap fun x => List.replicate x.2 x.1) =
      List.replicate m I ++ S₂.flatMap fun x => List.replicate x.2 x.1 := by
  simp

theorem flatMap_flat :
    (((List.replicate m S₁).flatten ++ S₂).flatMap fun x => List.replicate x.2 x.1) =
      (List.replicate m (S₁.flatMap fun x => List.replicate x.2 x.1)).flatten ++
        S₂.flatMap fun x => List.replicate x.2 x.1 := by
  rw [List.flatMap_append]
  congr 1
  induction m with
  | zero => rfl
  | succ m ih => simp [List.replicate_succ, ih]

theorem length_blocksOf_nested :
    (blocksOf ((I, m) :: S₂)).length = m + (blocksOf S₂).length := by
  rw [← length_stores, flatMap_nested, List.length_append, List.length_replicate, length_stores]

theorem length_blocksOf_flat :
    (blocksOf ((List.replicate m S₁).flatten ++ S₂)).length =
      m * (blocksOf S₁).length + (blocksOf S₂).length := by
  rw [← length_stores, flatMap_flat, List.length_append, length_flatten_replicate, length_stores,
    length_stores]

variable {I S₁ S₂ m}

/-- Block `t < m` of the nested composite is a copy of `I`. -/
theorem store_nested_copy {t : Nat} (ht : t < m) :
    ((blocksOf ((I, m) :: S₂)).getD t default).store = I := by
  rw [store_getD_blocksOf_eq, flatMap_nested, List.getD_append _ _ _ _ (by simpa using ht)]
  simp [List.getD_eq_getElem?_getD, ht]

/-- Block `t · n₁ + β` of the flattening is block `β` of `I`. -/
theorem store_flat_copy {t β : Nat} (ht : t < m) (hβ : β < (blocksOf S₁).length) :
    ((blocksOf ((List.replicate m S₁).flatten ++ S₂)).getD (t * (blocksOf S₁).length + β)
      default).store = ((blocksOf S₁).getD β default).store := by
  rw [store_getD_blocksOf_eq, store_getD_blocksOf_eq, flatMap_flat, ← length_stores S₁,
    getD_flatten_replicate_append _ _ _ ht (by rwa [length_stores])]

/-- The blocks of `S₂` come after the copies of `I`, in both composites. -/
theorem store_rest (S₁ : List (Store × Nat)) (j : Nat) :
    ((blocksOf ((I, m) :: S₂)).getD (m + j) default).store =
      ((blocksOf ((List.replicate m S₁).flatten ++ S₂)).getD (m * (blocksOf S₁).length + j)
        default).store := by
  rw [store_getD_blocksOf_eq, store_getD_blocksOf_eq, flatMap_nested, flatMap_flat,
    List.getD_append_right _ _ _ _ (by simp),
    List.getD_append_right _ _ _ _ (by rw [length_flatten_replicate, length_stores]; omega),
    length_flatten_replicate, length_stores, List.length_replicate]
  simp

section Sums

variable (f : Store → Nat)

theorem sum_range_nested_copy {t : Nat} (ht : t ≤ m) :
    ((List.range t).map fun β => f ((blocksOf ((I, m) :: S₂)).getD β default).store).sum =
      t * f I := by
  rw [sum_range_store _ _ (by rw [length_blocksOf_nested]; omega), flatMap_nested,
    List.take_append_of_le_length (by simpa using ht), List.take_replicate, Nat.min_eq_left ht]
  simp

variable {f} (hf : ((blocksOf S₁).map fun blk => f blk.store).sum = f I)
include hf

theorem sum_range_flat_copy {t β : Nat} (ht : t < m) (hβ : β ≤ (blocksOf S₁).length) :
    ((List.range (t * (blocksOf S₁).length + β)).map fun β' =>
        f ((blocksOf ((List.replicate m S₁).flatten ++ S₂)).getD β' default).store).sum =
      t * f I + ((List.range β).map fun β' => f ((blocksOf S₁).getD β' default).store).sum := by
  have hlen : t * (blocksOf S₁).length + β ≤ m * (blocksOf S₁).length := by nlinarith
  rw [sum_range_store _ _ (by rw [length_blocksOf_flat]; omega), sum_range_store _ _ hβ,
    flatMap_flat, ← length_stores S₁, take_flatten_replicate_append _ _ ht (by rwa [length_stores]),
    List.map_append, List.sum_append, sum_map_flatten_replicate, sum_stores, hf, smul_eq_mul]

theorem sum_range_rest (j : Nat) (hj : j ≤ (blocksOf S₂).length) :
    ((List.range (m + j)).map fun β => f ((blocksOf ((I, m) :: S₂)).getD β default).store).sum =
      ((List.range (m * (blocksOf S₁).length + j)).map fun β =>
        f ((blocksOf ((List.replicate m S₁).flatten ++ S₂)).getD β default).store).sum := by
  have htake : (List.replicate m I ++ S₂.flatMap fun x => List.replicate x.2 x.1).take (m + j) =
      List.replicate m I ++ (S₂.flatMap fun x => List.replicate x.2 x.1).take j := by
    simpa using @List.take_length_add_append _ (List.replicate m I) _ j
  rw [sum_range_store _ _ (by rw [length_blocksOf_nested]; omega),
    sum_range_store _ _ (by rw [length_blocksOf_flat]; omega), flatMap_nested, flatMap_flat,
    ← length_stores S₁, take_flatten_replicate_append_rest, htake, List.map_append,
    List.map_append, List.sum_append, List.sum_append, sum_map_flatten_replicate, sum_stores, hf,
    smul_eq_mul]
  simp

end Sums

/-! ### Offsets -/

theorem compOffset_nested_copy {t : Nat} (ht : t < m) :
    ((blocksOf ((I, m) :: S₂)).getD t default).compOffset = t * I.components.toNat := by
  rw [compOffset_getD_blocksOf (by rw [length_blocksOf_nested]; omega),
    sum_range_nested_copy (fun S => S.components.toNat) ht.le]

theorem cellOffset_nested_copy {t : Nat} (ht : t < m) :
    ((blocksOf ((I, m) :: S₂)).getD t default).cellOffset = t * I.dofsPerCell.toNat := by
  rw [cellOffset_getD_blocksOf (by rw [length_blocksOf_nested]; omega),
    sum_range_nested_copy (fun S => S.dofsPerCell.toNat) ht.le]

section Components

variable (hcomp : ((blocksOf S₁).map fun blk => blk.store.components.toNat).sum =
  I.components.toNat)
include hcomp

theorem compOffset_flat_copy {t β : Nat} (ht : t < m) (hβ : β < (blocksOf S₁).length) :
    ((blocksOf ((List.replicate m S₁).flatten ++ S₂)).getD (t * (blocksOf S₁).length + β)
      default).compOffset = t * I.components.toNat + ((blocksOf S₁).getD β default).compOffset := by
  rw [compOffset_getD_blocksOf (by rw [length_blocksOf_flat]; nlinarith),
    sum_range_flat_copy (f := fun S => S.components.toNat) hcomp ht hβ.le,
    compOffset_getD_blocksOf hβ]

theorem compOffset_rest {j : Nat} (hj : j < (blocksOf S₂).length) :
    ((blocksOf ((I, m) :: S₂)).getD (m + j) default).compOffset =
      ((blocksOf ((List.replicate m S₁).flatten ++ S₂)).getD (m * (blocksOf S₁).length + j)
        default).compOffset := by
  rw [compOffset_getD_blocksOf (by rw [length_blocksOf_nested]; omega),
    compOffset_getD_blocksOf (by rw [length_blocksOf_flat]; omega),
    sum_range_rest (f := fun S => S.components.toNat) hcomp _ hj.le]

end Components

section Cells

variable (hcell : ((blocksOf S₁).map fun blk => blk.store.dofsPerCell.toNat).sum =
  I.dofsPerCell.toNat)
include hcell

theorem cellOffset_flat_copy {t β : Nat} (ht : t < m) (hβ : β < (blocksOf S₁).length) :
    ((blocksOf ((List.replicate m S₁).flatten ++ S₂)).getD (t * (blocksOf S₁).length + β)
      default).cellOffset =
      t * I.dofsPerCell.toNat + ((blocksOf S₁).getD β default).cellOffset := by
  rw [cellOffset_getD_blocksOf (by rw [length_blocksOf_flat]; nlinarith),
    sum_range_flat_copy (f := fun S => S.dofsPerCell.toNat) hcell ht hβ.le,
    cellOffset_getD_blocksOf hβ]

theorem cellOffset_rest {j : Nat} (hj : j < (blocksOf S₂).length) :
    ((blocksOf ((I, m) :: S₂)).getD (m + j) default).cellOffset =
      ((blocksOf ((List.replicate m S₁).flatten ++ S₂)).getD (m * (blocksOf S₁).length + j)
        default).cellOffset := by
  rw [cellOffset_getD_blocksOf (by rw [length_blocksOf_nested]; omega),
    cellOffset_getD_blocksOf (by rw [length_blocksOf_flat]; omega),
    sum_range_rest (f := fun S => S.dofsPerCell.toNat) hcell _ hj.le]

end Cells

end Nested

end FiniteElements.Element
