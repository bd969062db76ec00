import FiniteElements.Element.Composite
import FiniteElements.Proofs.Outcome

/-!
# Enumerations of block dofs

A composite numbers the dofs of its blocks in one list of block dofs `(block, index)`. Whatever
the order, the list is a rearrangement of the plain block-by-block list `blockwise` as soon as it
lists, for each block, that block's dofs `0, 1, …` in increasing order (`perm_blockwise`). The
same per-block order gives, for a dof, the dofs of its block that come before it (`filter_take`).

Inside one block, dofs numbered object kind by object kind and object by object, `n k` on each of
the `objs k` objects of kind `k`, run through `0, 1, …` in order (`objectwise_eq_range`).

## Main definitions

* `FiniteElements.Element.blockwise`, `FiniteElements.Element.objectOffset`

## Main results

* `perm_blockwise`, `filter_take`, `objectwise_eq_range`, `getElem?_flatMap_range`
-/

namespace FiniteElements.Element

set_option autoImplicit false

deriving instance ReflBEq, LawfulBEq for BlockDof

/-- The dofs of blocks `0 … B - 1`, block by block, `n β` dofs in block `β`. -/
def blockwise (B : Nat) (n : Nat → Nat) : List BlockDof :=
  (List.range B).flatMap fun β => (List.range (n β)).map (BlockDof.mk β)

/-- The first dof on objects of kind `k` when kinds come in order, `objs j` objects of kind `j`
carrying `n j` dofs each. -/
def objectOffset (objs n : Nat → Nat) (k : Nat) : Nat :=
  ((List.range k).map fun j => objs j * n j).sum

theorem objectOffset_succ (objs n : Nat → Nat) (k : Nat) :
    objectOffset objs n (k + 1) = objectOffset objs n k + objs k * n k := by
  simp [objectOffset, List.range_succ]

theorem objectOffset_congr {objs n n' : Nat → Nat} {k : Nat}
    (h : ∀ j < k, objs j = 0 ∨ n j = n' j) : objectOffset objs n k = objectOffset objs n' k := by
  unfold objectOffset
  refine congrArg List.sum (List.map_congr_left fun j hj => ?_)
  rcases h j (List.mem_range.1 hj) with h0 | h1
  · simp [h0]
  · rw [h1]

/-- Mapping over a list is mapping over its positions. -/
theorem map_range_getD {α β : Type} [Inhabited α] (xs : List α) (f : α → β) :
    (List.range xs.length).map (fun i => f (xs.getD i default)) = xs.map f := by
  refine List.ext_getElem (by simp) fun i h₁ h₂ => ?_
  simp only [List.length_map, List.length_range] at h₁
  simp [List.getD_eq_getElem?_getD, List.getElem?_eq_getElem h₁]

/-- A mapped range read below its length is the function at that position. -/
theorem getD_map_range {β : Type} {F : Nat → β} {n k : Nat} (hk : k < n) (d : β) :
    ((List.range n).map F).getD k d = F k := by
  simp [List.getD_eq_getElem?_getD, hk]

theorem getD_mem_of_lt {α : Type} {xs : List α} {i : Nat} (d : α) (h : i < xs.length) :
    xs.getD i d ∈ xs := by
  rw [List.getD_eq_getElem?_getD, List.getElem?_eq_getElem h, Option.getD_some]
  exact List.getElem_mem h

/-- Mapping over a prefix of a list is mapping over the prefix's positions. -/
theorem map_take_eq_map_range {α β : Type} [Inhabited α] (xs : List α) (f : α → β) {n : Nat}
    (hn : n ≤ xs.length) : (xs.take n).map f = (List.range n).map fun i => f (xs.getD i default) := by
  refine List.ext_getElem (by simp; omega) fun i h₁ h₂ => ?_
  simp only [List.length_map, List.length_range] at h₂
  simp [List.getD_eq_getElem?_getD, List.getElem?_eq_getElem (by omega : i < xs.length)]

/-- Walking a list with its positions is walking the positions. -/
theorem zipIdx_flatMap {α γ : Type} [Inhabited α] (xs : List α) (f : α × Nat → List γ) :
    xs.zipIdx.flatMap f = (List.range xs.length).flatMap fun b => f (xs.getD b default, b) := by
  suffices h : ∀ i, (xs.zipIdx i).flatMap f =
      (List.range xs.length).flatMap fun b => f (xs.getD b default, i + b) by
    simpa using h 0
  induction xs with
  | nil => simp
  | cons x xs ih =>
    intro i
    rw [List.zipIdx_cons, List.flatMap_cons, ih, List.length_cons, List.range_succ_eq_map,
      List.flatMap_cons, List.flatMap_map]
    simp [Nat.add_assoc, Nat.add_comm 1]

section Blocks

variable {B : Nat} {n : Nat → Nat}

/-- Keeping the dofs of one block of a list made block by block keeps that block's part. -/
theorem filter_flatMap_range (chunk : Nat → List BlockDof)
    (hchunk : ∀ b, ∀ bd ∈ chunk b, bd.block = b) {β : Nat} (hβ : β < B) :
    ((List.range B).flatMap chunk).filter (·.block == β) = chunk β := by
  induction B with
  | zero => omega
  | succ B ih =>
    rw [List.range_succ, List.flatMap_append, List.filter_append, List.flatMap_singleton]
    by_cases hB : β = B
    · subst hB
      have hnone : ((List.range β).flatMap chunk).filter (·.block == β) = [] := by
        refine List.filter_eq_nil_iff.2 fun bd hbd => ?_
        obtain ⟨b, hb, hbd⟩ := List.mem_flatMap.1 hbd
        simp [hchunk b bd hbd, Nat.ne_of_lt (List.mem_range.1 hb)]
      rw [hnone, List.filter_eq_self.2 fun bd hbd => by simp [hchunk β bd hbd]]
      rfl
    · rw [ih (by omega), List.filter_eq_nil_iff.2 fun bd hbd => by simp [hchunk B bd hbd, Ne.symm hB]]
      simp

theorem filter_blockwise {β : Nat} (hβ : β < B) :
    (blockwise B n).filter (·.block == β) = (List.range (n β)).map (BlockDof.mk β) :=
  filter_flatMap_range _ (fun b bd hbd => by
    obtain ⟨k, -, rfl⟩ := List.mem_map.1 hbd
    rfl) hβ

/-- A list of dofs of one block is the block's dofs at its indices. -/
theorem eq_map_mk_of_block {L : List BlockDof} {β : Nat} (h : ∀ bd ∈ L, bd.block = β) :
    L = (L.map (·.index)).map (BlockDof.mk β) := by
  conv_lhs => rw [← List.map_id L]
  rw [List.map_map]
  exact List.map_congr_left fun bd hbd => by simp [← h bd hbd]

/-- **A per-block order makes a rearrangement.** A list of block dofs of blocks below `B` that
lists the dofs `0, 1, …, n β - 1` of every block `β` in increasing order is a rearrangement of the
block-by-block list. -/
theorem perm_blockwise {L : List BlockDof} (hL : ∀ bd ∈ L, bd.block < B)
    (hf : ∀ β < B, (L.filter (·.block == β)).map (·.index) = List.range (n β)) :
    L.Perm (blockwise B n) := by
  refine List.perm_iff_count.2 fun x => ?_
  have hcount (M : List BlockDof) : M.count x = (M.filter (·.block == x.block)).count x := by
    rw [List.count_filter (by simp)]
  rw [hcount L, hcount (blockwise B n)]
  by_cases hx : x.block < B
  · rw [filter_blockwise hx, eq_map_mk_of_block (L := L.filter (·.block == x.block))
      (fun bd hbd => by simpa using (List.mem_filter.1 hbd).2), hf _ hx]
  · have hnil : L.filter (·.block == x.block) = [] :=
      List.filter_eq_nil_iff.2 fun bd hbd => by
        have := hL bd hbd
        simp only [beq_iff_eq]
        omega
    have hnil' : (blockwise B n).filter (·.block == x.block) = [] :=
      List.filter_eq_nil_iff.2 fun bd hbd => by
        obtain ⟨b, hb, hbd⟩ := List.mem_flatMap.1 hbd
        obtain ⟨k, -, rfl⟩ := List.mem_map.1 hbd
        simp only [beq_iff_eq]
        have := List.mem_range.1 hb
        omega
    rw [hnil, hnil']

/-- A list of dofs of blocks below `B` that lists the dofs `0, 1, …, n β - 1` of every block `β`,
in that order. -/
structure BlockOrdered (L : List BlockDof) (B : Nat) (n : Nat → Nat) : Prop where
  block_lt : ∀ bd ∈ L, bd.block < B
  filter_eq : ∀ β < B, (L.filter (·.block == β)).map (·.index) = List.range (n β)

theorem blockOrdered_blockwise : BlockOrdered (blockwise B n) B n where
  block_lt bd hbd := by
    obtain ⟨β, hβ, hbd⟩ := List.mem_flatMap.1 hbd
    obtain ⟨k, -, rfl⟩ := List.mem_map.1 hbd
    exact List.mem_range.1 hβ
  filter_eq β hβ := by
    rw [filter_blockwise hβ, List.map_map]
    exact List.map_id _

theorem BlockOrdered.perm {L : List BlockDof} (h : BlockOrdered L B n) : L.Perm (blockwise B n) :=
  perm_blockwise h.block_lt h.filter_eq

theorem nodup_blockwise : (blockwise B n).Nodup := by
  refine List.nodup_flatMap.2 ⟨fun β _ => List.nodup_range.map fun _ _ h => by cases h; rfl, ?_⟩
  refine List.pairwise_lt_range.imp fun {b b'} hlt bd h1 h2 => ?_
  obtain ⟨k, -, rfl⟩ := List.mem_map.1 h1
  obtain ⟨k', -, h⟩ := List.mem_map.1 h2
  cases h
  omega

theorem length_blockwise : (blockwise B n).length = ((List.range B).map n).sum := by
  simp [blockwise, List.length_flatMap]

theorem BlockOrdered.length {L : List BlockDof} (h : BlockOrdered L B n) :
    L.length = ((List.range B).map n).sum :=
  h.perm.length_eq.trans length_blockwise

theorem BlockOrdered.nodup {L : List BlockDof} (h : BlockOrdered L B n) : L.Nodup :=
  h.perm.nodup_iff.2 nodup_blockwise

/-- Every dof of a block is listed. -/
theorem BlockOrdered.mem {L : List BlockDof} (h : BlockOrdered L B n) {β k : Nat} :
    ⟨β, k⟩ ∈ L ↔ β < B ∧ k < n β := by
  rw [h.perm.mem_iff]
  simp [blockwise]

end Blocks

/-- A prefix of `0, 1, …, n - 1` followed by `k` is `0, 1, …, k - 1`. -/
theorem eq_range_of_append_cons {A C : List Nat} {k n : Nat} (h : A ++ k :: C = List.range n) :
    A = List.range k := by
  have hlen : A.length < n := by
    have := congrArg List.length h
    simp at this
    omega
  have hk : k = A.length := by
    have := congrArg (·[A.length]?) h
    simpa [List.getElem?_append_right, hlen] using this
  subst hk
  have := congrArg (List.take A.length) h
  simpa [List.take_range, Nat.min_eq_left (Nat.le_of_lt hlen)] using this

/-- **The dofs of a block before a dof.** In a list that numbers every block's dofs in increasing
order, the dofs of its block that come before the `k`-th dof of a block are that block's first
`k` dofs. -/
theorem filter_take {L : List BlockDof} {β k i m : Nat}
    (hf : (L.filter (·.block == β)).map (·.index) = List.range m) (hi : L[i]? = some ⟨β, k⟩) :
    ((L.take i).filter (·.block == β)).map (·.index) = List.range k := by
  obtain ⟨hil, hget⟩ := List.getElem?_eq_some_iff.1 hi
  have hsplit : L = L.take i ++ ⟨β, k⟩ :: L.drop (i + 1) := by
    rw [← hget, ← List.drop_eq_getElem_cons hil, List.take_append_drop]
  rw [hsplit, List.filter_append, List.filter_cons_of_pos (by simp), List.map_append,
    List.map_cons] at hf
  exact eq_range_of_append_cons hf

/-- Consecutive objects of `n` dofs each, from `a` on, run through `a, a + 1, …`. -/
theorem flatMap_range_map_add (a m n : Nat) :
    (List.range m).flatMap (fun o => (List.range n).map fun d => a + o * n + d) =
      List.range' a (m * n) := by
  induction m with
  | zero => simp
  | succ m ih =>
    rw [List.range_succ, List.flatMap_append, ih, List.flatMap_singleton, Nat.succ_mul,
      ← List.range'_append_1, List.range'_eq_map_range (s := a + m * n)]

/-- **Object by object is in order.** Dofs numbered kind by kind and object by object, each
object of kind `k` carrying `n k` dofs from the offset of its kind, are `0, 1, …` in order. -/
theorem objectwise_eq_range (objs n : Nat → Nat) (top : Nat) :
    (List.range top).flatMap (fun k => (List.range (objs k)).flatMap fun o =>
        (List.range (n k)).map fun d => objectOffset objs n k + o * n k + d) =
      List.range (objectOffset objs n top) := by
  induction top with
  | zero => simp [objectOffset]
  | succ top ih =>
    rw [List.range_succ, List.flatMap_append, ih, List.flatMap_singleton, flatMap_range_map_add,
      objectOffset_succ, List.range_eq_range', List.range_eq_range']
    simpa using (List.range'_append_1 (s := 0) (m := objectOffset objs n top)
      (n := objs top * n top))

/-- A dof before the end of kinds `0 … top - 1`, laid out object by object, is dof `d` of object
`o` of some kind `κ`. -/
theorem exists_objectwise_of_lt {objs n : Nat → Nat} {top k : Nat}
    (hk : k < objectOffset objs n top) :
    ∃ κ < top, ∃ o < objs κ, ∃ d < n κ, k = objectOffset objs n κ + o * n κ + d := by
  rw [← List.mem_range, ← objectwise_eq_range] at hk
  simp only [List.mem_flatMap, List.mem_range, List.mem_map] at hk
  obtain ⟨κ, hκ, o, ho, d, hd, rfl⟩ := hk
  exact ⟨κ, hκ, o, ho, d, hd, rfl⟩

/-- Entry `r` of part `o`, among parts of `N` entries each, comes before the end of `m > o`
parts. -/
theorem mul_add_lt_mul {o m r N : Nat} (ho : o < m) (hr : r < N) : o * N + r < m * N :=
  calc o * N + r < o * N + N := by omega
    _ = (o + 1) * N := (Nat.succ_mul o N).symm
    _ ≤ m * N := Nat.mul_le_mul_right N ho

/-- The parts before part `β`, with part `β`, are no more than all `B > β` parts. -/
theorem sum_range_add_le {n : Nat → Nat} {β B : Nat} (hβ : β < B) :
    ((List.range β).map n).sum + n β ≤ ((List.range B).map n).sum := by
  induction B with
  | zero => omega
  | succ B ih =>
    rw [List.range_succ, List.map_append, List.sum_append]
    rcases Nat.lt_succ_iff_lt_or_eq.1 hβ with h | rfl
    · have := ih h
      simp only [List.map_cons, List.map_nil, List.sum_cons, List.sum_nil]
      omega
    · simp

/-- Entries of parts laid end to end are told apart by their part and their place in it. -/
theorem eq_of_sum_range_add {n : Nat → Nat} {β β' c c' : Nat} (hc : c < n β) (hc' : c' < n β')
    (h : ((List.range β).map n).sum + c = ((List.range β').map n).sum + c') : β = β' ∧ c = c' := by
  rcases Nat.lt_trichotomy β β' with hlt | rfl | hgt
  · have := sum_range_add_le (n := n) hlt
    omega
  · omega
  · have := sum_range_add_le (n := n) hgt
    omega

/-- The entry of a list made part by part, at the start of part `β` plus `r`, is entry `r` of
part `β`. -/
theorem getElem?_flatMap_range {α : Type} (f : Nat → List α) {B β r : Nat} (hβ : β < B)
    (hr : r < (f β).length) :
    ((List.range B).flatMap f)[((List.range β).map fun b => (f b).length).sum + r]? =
      (f β)[r]? := by
  induction B with
  | zero => omega
  | succ B ih =>
    rw [List.range_succ, List.flatMap_append, List.flatMap_singleton]
    by_cases hB : β = B
    · subst hB
      rw [List.getElem?_append_right (by simp [List.length_flatMap])]
      simp [List.length_flatMap]
    · have h := ih (by omega)
      rw [List.getElem?_append_left, h]
      have := (List.getElem?_eq_some_iff.1 (h.trans (List.getElem?_eq_getElem hr))).1
      exact this

/-- `getElem?_flatMap_range` with the parts' lengths given. -/
theorem getElem?_flatMap_range_of_length {α : Type} {f : Nat → List α} {n : Nat → Nat}
    (hlen : ∀ b, (f b).length = n b) {B β r : Nat} (hβ : β < B) (hr : r < n β) :
    ((List.range B).flatMap f)[((List.range β).map n).sum + r]? = (f β)[r]? := by
  have h := getElem?_flatMap_range f hβ (r := r) (by rw [hlen]; exact hr)
  simpa only [hlen] using h

/-- The entries of a list made part by part before entry `r` of part `β`: all earlier parts and
the first `r` entries of part `β`. -/
theorem take_flatMap_range {α : Type} (f : Nat → List α) {B β r : Nat} (hβ : β < B)
    (hr : r ≤ (f β).length) :
    ((List.range B).flatMap f).take (((List.range β).map fun b => (f b).length).sum + r) =
      (List.range β).flatMap f ++ (f β).take r := by
  induction B with
  | zero => omega
  | succ B ih =>
    rw [List.range_succ, List.flatMap_append, List.flatMap_singleton]
    by_cases hB : β = B
    · subst hB
      have hlen : ((List.range β).map fun b => (f b).length).sum = ((List.range β).flatMap f).length := by
        simp [List.length_flatMap]
      rw [hlen, List.take_length_add_append]
    · have hle := sum_range_add_le (n := fun b => (f b).length) (show β < B by omega)
      rw [List.take_append_of_le_length (by simp only [List.length_flatMap]; omega), ih (by omega)]

/-- Keeping the dofs of one block of a list made block by block, each block's dofs numbered by
`g`, keeps that block's dofs. -/
theorem filter_flatMap_mk (n : Nat → Nat) (g : Nat → Nat → Nat) {B β : Nat} (hβ : β < B) :
    ((List.range B).flatMap fun b => (List.range (n b)).map fun d => (⟨b, g b d⟩ : BlockDof)).filter
      (·.block == β) = (List.range (n β)).map fun d => ⟨β, g β d⟩ :=
  filter_flatMap_range _ (fun b bd hbd => by
    obtain ⟨d, -, rfl⟩ := List.mem_map.1 hbd
    rfl) hβ

end FiniteElements.Element
