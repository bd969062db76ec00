import FiniteElements.Proofs.Layout.Enumeration

/-!
# The blocks of a composite

A composite of bases `S_0, S_1, …` with multiplicities `m_0, m_1, …` has one block per copy,
base by base and copy by copy: the keys `(S_b, b, t)` for `t < m_b` (`blockKeys`). Each block
starts at the components and the blocked cell dofs of all blocks before it (`blocksOf_eq`).

The places `(b, t, k)` of the dofs of the blocks are listed by `blockPlaces`, and place
`(b, t, k)` comes `blockStart b t + k` entries in: after the dofs of every copy of the bases
before `b` and of the copies of `S_b` before `t`.

## Main definitions

* `asSpecs`, `blockKeys`, `blockPlaces`, `blockStart`, `withOffsets`

## Main results

* `blocksOf_eq`: the blocks are the keys with their offsets.
* `getElem?_blockPlaces`, `nodup_blockPlaces`, `mem_blockPlaces`
-/

namespace FiniteElements.Element

set_option autoImplicit false

/-- The bases as a composite is asked for them: each present, with its multiplicity. -/
def asSpecs (bases : List (Store × Nat)) : List (Option Store × Int) :=
  bases.map fun x => (some x.1, (x.2 : Int))

theorem asSpecs_injective : ∀ {a b : List (Store × Nat)}, asSpecs a = asSpecs b → a = b
  | [], [], _ => rfl
  | x :: a, y :: b, h => by
    simp only [asSpecs, List.map_cons, List.cons.injEq, Prod.mk.injEq, Option.some.injEq,
      Int.natCast_inj] at h
    obtain ⟨⟨h₁, h₂⟩, h⟩ := h
    rw [Prod.ext h₁ h₂, asSpecs_injective h]
  | [], _ :: _, h | _ :: _, [], h => by simp [asSpecs] at h

/-- The blocks of bases as `(store, base, copy)`, base by base and copy by copy. -/
def blockKeys (bases : List (Store × Nat)) : List (Store × Nat × Nat) :=
  (List.range bases.length).flatMap fun b =>
    (List.range (bases.getD b default).2).map fun t => ((bases.getD b default).1, b, t)

/-- The places `(base, copy, dof)` of the dofs of the blocks, `count S` dofs in a copy of `S`. -/
def blockPlaces (bases : List (Store × Nat)) (count : Store → Nat) : List BaseIndex :=
  (List.range bases.length).flatMap fun b =>
    (List.range (bases.getD b default).2).flatMap fun t =>
      (List.range (count (bases.getD b default).1)).map fun k => ⟨b, t, k⟩

/-- The number of dofs in the blocks before copy `t` of base `b`. -/
def blockStart (bases : List (Store × Nat)) (count : Store → Nat) (b t : Nat) : Nat :=
  ((List.range b).map fun b' => (bases.getD b' default).2 * count (bases.getD b' default).1).sum +
    t * count (bases.getD b default).1

/-- Blocks of the given keys, each starting at the components and cell dofs of those before. -/
def withOffsets : List (Store × Nat × Nat) → Nat → Nat → List Block
  | [], _, _ => []
  | (s, b, t) :: keys, x, y =>
    ⟨s, b, t, x, y⟩ :: withOffsets keys (x + s.components.toNat) (y + s.dofsPerCell.toNat)

theorem withOffsets_append (k₁ k₂ : List (Store × Nat × Nat)) (x y : Nat) :
    withOffsets (k₁ ++ k₂) x y = withOffsets k₁ x y ++
      withOffsets k₂ (x + (k₁.map (·.1.components.toNat)).sum)
        (y + (k₁.map (·.1.dofsPerCell.toNat)).sum) := by
  induction k₁ generalizing x y with
  | nil => simp [withOffsets]
  | cons key k₁ ih =>
    obtain ⟨s, b, t⟩ := key
    simp [withOffsets, ih, Nat.add_assoc]

theorem length_withOffsets (keys : List (Store × Nat × Nat)) (x y : Nat) :
    (withOffsets keys x y).length = keys.length := by
  induction keys generalizing x y with
  | nil => rfl
  | cons key keys ih => simp [withOffsets, ih]

/-- The block at position `β` has the key at `β` and starts after the blocks before it. -/
theorem getElem?_withOffsets (keys : List (Store × Nat × Nat)) (x y β : Nat)
    {key : Store × Nat × Nat} (h : keys[β]? = some key) :
    (withOffsets keys x y)[β]? = some ⟨key.1, key.2.1, key.2.2,
      x + ((keys.take β).map (·.1.components.toNat)).sum,
      y + ((keys.take β).map (·.1.dofsPerCell.toNat)).sum⟩ := by
  induction keys generalizing x y β with
  | nil => simp at h
  | cons k keys ih =>
    obtain ⟨s, b, t⟩ := k
    cases β with
    | zero =>
      simp only [List.getElem?_cons_zero, Option.some.injEq] at h
      subst h
      simp [withOffsets]
    | succ β => simp [withOffsets, ih _ _ _ (by simpa using h), Nat.add_assoc]

/-- The copies of a block step of `blocksOf`, from any start. -/
private theorem foldl_copies (s : Store) (b : Nat) (ts : List Nat) (pre : List Block) (x y : Nat) :
    ts.foldl (fun (acc : List Block × Nat × Nat) t =>
        (acc.1 ++ [⟨s, b, t, acc.2.1, acc.2.2⟩], acc.2.1 + s.components.toNat,
          acc.2.2 + s.dofsPerCell.toNat)) (pre, x, y) =
      (pre ++ withOffsets (ts.map fun t => (s, b, t)) x y,
        x + ts.length * s.components.toNat, y + ts.length * s.dofsPerCell.toNat) := by
  induction ts generalizing pre x y with
  | nil => simp [withOffsets]
  | cons t ts ih =>
    simp only [List.foldl_cons, ih, List.map_cons, withOffsets, List.length_cons]
    simp [Nat.add_assoc, Nat.succ_mul, Nat.add_comm]

/-- **The blocks of a composite.** Copy `t` of base `b` is a block, base by base and copy by copy,
each starting at the components and cell dofs of the blocks before it. -/
theorem blocksOf_eq (bases : List (Store × Nat)) : blocksOf bases = withOffsets (blockKeys bases) 0 0 := by
  suffices h : ∀ (ps : List ((Store × Nat) × Nat)) (pre : List Block) (x y : Nat),
      ps.foldl (fun acc (p : (Store × Nat) × Nat) =>
        (List.range p.1.2).foldl (fun (acc : List Block × Nat × Nat) t =>
          (acc.1 ++ [⟨p.1.1, p.2, t, acc.2.1, acc.2.2⟩], acc.2.1 + p.1.1.components.toNat,
            acc.2.2 + p.1.1.dofsPerCell.toNat)) acc) (pre, x, y) =
        (pre ++ withOffsets (ps.flatMap fun p => (List.range p.1.2).map fun t => (p.1.1, p.2, t)) x y,
          x + ((ps.flatMap fun p => (List.range p.1.2).map fun t => (p.1.1, p.2, t)).map
            (·.1.components.toNat)).sum,
          y + ((ps.flatMap fun p => (List.range p.1.2).map fun t => (p.1.1, p.2, t)).map
            (·.1.dofsPerCell.toNat)).sum) by
    have := h bases.zipIdx [] 0 0
    simp only [blocksOf, List.nil_append] at this ⊢
    rw [this, blockKeys, zipIdx_flatMap]
  intro ps
  induction ps with
  | nil => simp [withOffsets]
  | cons p ps ih =>
    intro pre x y
    rw [List.foldl_cons, foldl_copies, ih, List.flatMap_cons, withOffsets_append]
    simp [Nat.add_assoc, List.sum_append, Function.comp_def, List.map_const']

theorem length_blocksOf (bases : List (Store × Nat)) :
    (blocksOf bases).length = (blockKeys bases).length := by
  rw [blocksOf_eq, length_withOffsets]

theorem mem_blockKeys {bases : List (Store × Nat)} {key : Store × Nat × Nat} :
    key ∈ blockKeys bases ↔ key.2.1 < bases.length ∧ key.2.2 < (bases.getD key.2.1 default).2 ∧
      key.1 = (bases.getD key.2.1 default).1 := by
  obtain ⟨s, b, t⟩ := key
  simp only [blockKeys, List.mem_flatMap, List.mem_range, List.mem_map, Prod.mk.injEq]
  constructor
  · rintro ⟨b, hb, t, ht, rfl, rfl, rfl⟩
    exact ⟨hb, ht, rfl⟩
  · rintro ⟨hb, ht, rfl⟩
    exact ⟨b, hb, t, ht, rfl, rfl, rfl⟩

/-- The block at a position is a copy of one of the bases, with that key and those offsets. -/
theorem getElem?_blocksOf {bases : List (Store × Nat)} {β : Nat}
    (hβ : β < (blocksOf bases).length) :
    ∃ key ∈ blockKeys bases, (blockKeys bases)[β]? = some key ∧ (blocksOf bases)[β]? =
      some ⟨key.1, key.2.1, key.2.2, (((blockKeys bases).take β).map (·.1.components.toNat)).sum,
        (((blockKeys bases).take β).map (·.1.dofsPerCell.toNat)).sum⟩ := by
  rw [length_blocksOf] at hβ
  refine ⟨(blockKeys bases)[β], List.getElem_mem hβ, List.getElem?_eq_getElem hβ, ?_⟩
  rw [blocksOf_eq, getElem?_withOffsets _ _ _ _ (List.getElem?_eq_getElem hβ)]
  simp

/-- The store of every block is one of the bases. -/
theorem store_getD_blocksOf {bases : List (Store × Nat)} {β : Nat}
    (hβ : β < (blocksOf bases).length) :
    ∃ x ∈ bases, ((blocksOf bases).getD β default).store = x.1 := by
  obtain ⟨key, hkey, -, hblk⟩ := getElem?_blocksOf hβ
  obtain ⟨hb, -, hs⟩ := mem_blockKeys.1 hkey
  refine ⟨bases.getD key.2.1 default, getD_mem_of_lt default hb, ?_⟩
  simp [List.getD_eq_getElem?_getD, hblk, hs]

private theorem store_getD_blockKeys {bases : List (Store × Nat)} {i : Nat}
    (hi : i < (blocksOf bases).length) :
    ((blockKeys bases).getD i default).1 = ((blocksOf bases).getD i default).store := by
  obtain ⟨key, -, hkey, hblk⟩ := getElem?_blocksOf hi
  simp [List.getD_eq_getElem?_getD, hkey, hblk]

/-- A block's components come after those of the blocks before it. -/
theorem compOffset_getD_blocksOf {bases : List (Store × Nat)} {β : Nat}
    (hβ : β < (blocksOf bases).length) :
    ((blocksOf bases).getD β default).compOffset =
      ((List.range β).map fun β' => ((blocksOf bases).getD β' default).store.components.toNat).sum := by
  obtain ⟨key, -, -, hblk⟩ := getElem?_blocksOf hβ
  rw [List.getD_eq_getElem?_getD, hblk, Option.getD_some]
  dsimp only
  rw [map_take_eq_map_range _ _ (by rw [← length_blocksOf]; omega)]
  exact congrArg List.sum (List.map_congr_left fun i hi => by
    rw [store_getD_blockKeys (by simp at hi; omega)])

/-- A block's cell dofs come after those of the blocks before it. -/
theorem cellOffset_getD_blocksOf {bases : List (Store × Nat)} {β : Nat}
    (hβ : β < (blocksOf bases).length) :
    ((blocksOf bases).getD β default).cellOffset =
      ((List.range β).map fun β' => ((blocksOf bases).getD β' default).store.dofsPerCell.toNat).sum := by
  obtain ⟨key, -, -, hblk⟩ := getElem?_blocksOf hβ
  rw [List.getD_eq_getElem?_getD, hblk, Option.getD_some]
  dsimp only
  rw [map_take_eq_map_range _ _ (by rw [← length_blocksOf]; omega)]
  exact congrArg List.sum (List.map_congr_left fun i hi => by
    rw [store_getD_blockKeys (by simp at hi; omega)])

/-- The block of copy `t` of base `b`: after all copies of the earlier bases. -/
def blockIndex (bases : List (Store × Nat)) (b t : Nat) : Nat :=
  ((List.range b).map fun b' => (bases.getD b' default).2).sum + t

section Keys

variable {bases : List (Store × Nat)} {b t : Nat} (hb : b < bases.length)
  (ht : t < (bases.getD b default).2)
include hb ht

theorem getElem?_blockKeys :
    (blockKeys bases)[blockIndex bases b t]? = some ((bases.getD b default).1, b, t) := by
  rw [blockKeys, blockIndex, getElem?_flatMap_range_of_length (n := fun b => (bases.getD b default).2)
    (fun b => by simp) hb ht, List.getElem?_map, List.getElem?_range ht]
  rfl

/-- The blocks before copy `t` of base `b` are `blockStart` dofs long. -/
theorem sum_take_blockKeys (count : Store → Nat) :
    (((blockKeys bases).take (blockIndex bases b t)).map fun key => count key.1).sum =
      blockStart bases count b t := by
  rw [blockKeys, blockIndex, show ((List.range b).map fun b' => (bases.getD b' default).2) =
      (List.range b).map fun b' => ((List.range (bases.getD b' default).2).map
        fun t => ((bases.getD b' default).1, b', t)).length by simp,
    take_flatMap_range _ hb (by simpa using Nat.le_of_lt ht), List.map_append, List.sum_append,
    List.map_flatMap, List.flatMap_def, List.sum_flatten, List.map_map, ← List.map_take]
  simp only [blockStart, List.map_map, Function.comp_def, List.map_const', List.sum_replicate_nat,
    List.length_range, List.length_take, Nat.min_eq_left (Nat.le_of_lt ht)]

theorem getD_blocksOf_blockIndex :
    ((blocksOf bases).getD (blockIndex bases b t) default).store = (bases.getD b default).1 ∧
      ((blocksOf bases).getD (blockIndex bases b t) default).base = b ∧
      ((blocksOf bases).getD (blockIndex bases b t) default).copy = t := by
  have hlt : blockIndex bases b t < (blocksOf bases).length := by
    rw [length_blocksOf]
    exact (List.getElem?_eq_some_iff.1 (getElem?_blockKeys hb ht)).1
  obtain ⟨key, -, hkey, hblk⟩ := getElem?_blocksOf hlt
  rw [getElem?_blockKeys hb ht, Option.some.injEq] at hkey
  subst hkey
  simp [List.getD_eq_getElem?_getD, hblk]

theorem blockIndex_lt : blockIndex bases b t < (blocksOf bases).length := by
  rw [length_blocksOf]
  exact (List.getElem?_eq_some_iff.1 (getElem?_blockKeys hb ht)).1

/-- The blocks before copy `t` of base `b` are `blockStart` dofs long. -/
theorem sum_range_blocksOf (count : Store → Nat) :
    ((List.range (blockIndex bases b t)).map fun β => count ((blocksOf bases).getD β default).store).sum =
      blockStart bases count b t := by
  have hlt := blockIndex_lt hb ht
  rw [← sum_take_blockKeys hb ht count,
    map_take_eq_map_range _ _ (by rw [← length_blocksOf]; omega)]
  exact congrArg List.sum (List.map_congr_left fun i hi => by
    rw [store_getD_blockKeys (by simp at hi; omega)])

/-- Listed block by block, dof `k` of copy `t` of base `b` is dof `k` of block `blockIndex b t`,
after the dofs of the blocks before it. -/
theorem getElem?_blockwise_blockStart (count : Store → Nat) {k : Nat}
    (hk : k < count (bases.getD b default).1) :
    (blockwise (blocksOf bases).length fun β => count ((blocksOf bases).getD β default).store)[
      blockStart bases count b t + k]? = some ⟨blockIndex bases b t, k⟩ := by
  obtain ⟨hs, -, -⟩ := getD_blocksOf_blockIndex hb ht
  rw [← sum_range_blocksOf hb ht count, blockwise,
    getElem?_flatMap_range_of_length (n := fun β => count ((blocksOf bases).getD β default).store)
      (fun β => by simp) (blockIndex_lt hb ht) (by rw [hs]; exact hk),
    List.getElem?_map, List.getElem?_range (by rw [hs]; exact hk)]
  rfl

end Keys

/-- The blocks, as keys, are the keys. -/
theorem map_blocksOf (bases : List (Store × Nat)) :
    (blocksOf bases).map (fun blk => (blk.store, blk.base, blk.copy)) = blockKeys bases := by
  suffices h : ∀ (keys : List (Store × Nat × Nat)) (x y : Nat),
      (withOffsets keys x y).map (fun blk => (blk.store, blk.base, blk.copy)) = keys by
    rw [blocksOf_eq, h]
  intro keys
  induction keys with
  | nil => intros; rfl
  | cons key keys ih =>
    intro x y
    obtain ⟨s, b, t⟩ := key
    simp [withOffsets, ih]

/-- Counting over the blocks is counting over the bases, each as often as its multiplicity. -/
theorem map_store_blocksOf {α : Type} (bases : List (Store × Nat)) (f : Store → α) :
    (blocksOf bases).map (fun blk => f blk.store) =
      bases.flatMap fun x => List.replicate x.2 (f x.1) := by
  have hbases : bases = (List.range bases.length).map fun i => bases.getD i default := by
    simpa using (map_range_getD bases id).symm
  rw [show (fun blk : Block => f blk.store) = (fun key => f key.1) ∘
      (fun blk : Block => (blk.store, blk.base, blk.copy)) from rfl, ← List.map_map,
    map_blocksOf, blockKeys, List.map_flatMap]
  conv_rhs => rw [hbases]
  rw [List.flatMap_map]
  refine List.flatMap_congr fun b _ => ?_
  simp [Function.comp_def, List.map_const']

/-- **Summing over the blocks** is summing over the bases, each as often as its multiplicity. -/
theorem sum_blocksOf (bases : List (Store × Nat)) (f : Store → Int) :
    ((blocksOf bases).map fun blk => f blk.store).sum = (bases.map fun x => (x.2 : Int) * f x.1).sum := by
  have hkeys : ((blocksOf bases).map fun blk => f blk.store) =
      (blockKeys bases).map fun key => f key.1 := by
    rw [← map_blocksOf, List.map_map]
    rfl
  rw [hkeys, blockKeys, List.map_flatMap, List.flatMap_def, List.sum_flatten, List.map_map,
    ← map_range_getD bases fun x => (x.2 : Int) * f x.1]
  simp [Function.comp_def, List.map_const']

section Places

variable (bases : List (Store × Nat)) (count : Store → Nat)

theorem mem_blockPlaces {x : BaseIndex} :
    x ∈ blockPlaces bases count ↔ x.base < bases.length ∧ x.copy < (bases.getD x.base default).2 ∧
      x.index < count (bases.getD x.base default).1 := by
  obtain ⟨b, t, k⟩ := x
  simp only [blockPlaces, List.mem_flatMap, List.mem_range, List.mem_map, BaseIndex.mk.injEq]
  constructor
  · rintro ⟨b, hb, t, ht, k, hk, rfl, rfl, rfl⟩
    exact ⟨hb, ht, hk⟩
  · rintro ⟨hb, ht, hk⟩
    exact ⟨b, hb, t, ht, k, hk, rfl, rfl, rfl⟩

theorem nodup_blockPlaces : (blockPlaces bases count).Nodup := by
  refine List.nodup_flatMap.2 ⟨fun b _ => List.nodup_flatMap.2 ⟨fun t _ =>
    List.nodup_range.map fun _ _ h => by cases h; rfl, ?_⟩, ?_⟩
  · refine List.pairwise_lt_range.imp fun {t t'} hlt x h1 h2 => ?_
    obtain ⟨k, -, rfl⟩ := List.mem_map.1 h1
    obtain ⟨k', -, h⟩ := List.mem_map.1 h2
    cases h
    omega
  · refine List.pairwise_lt_range.imp fun {b b'} hlt x h1 h2 => ?_
    obtain ⟨t, -, h1⟩ := List.mem_flatMap.1 h1
    obtain ⟨t', -, h2⟩ := List.mem_flatMap.1 h2
    obtain ⟨k, -, rfl⟩ := List.mem_map.1 h1
    obtain ⟨k', -, h⟩ := List.mem_map.1 h2
    cases h
    omega

/-- **Where a place is.** Place `(b, t, k)` comes after the dofs of all earlier blocks. -/
theorem getElem?_blockPlaces {b t k : Nat} (hb : b < bases.length)
    (ht : t < (bases.getD b default).2) (hk : k < count (bases.getD b default).1) :
    (blockPlaces bases count)[blockStart bases count b t + k]? = some ⟨b, t, k⟩ := by
  have hlen (b' : Nat) : ((List.range (bases.getD b' default).2).flatMap fun t =>
      (List.range (count (bases.getD b' default).1)).map fun k => (⟨b', t, k⟩ : BaseIndex)).length =
      (bases.getD b' default).2 * count (bases.getD b' default).1 := by
    simp [List.length_flatMap, List.map_const']
  have hinner : ((List.range (bases.getD b default).2).flatMap fun t =>
      (List.range (count (bases.getD b default).1)).map fun k => (⟨b, t, k⟩ : BaseIndex))[
        t * count (bases.getD b default).1 + k]? = some ⟨b, t, k⟩ := by
    have := getElem?_flatMap_range (fun t => (List.range (count (bases.getD b default).1)).map
      fun k => (⟨b, t, k⟩ : BaseIndex)) ht (r := k) (by simpa using hk)
    rw [List.getElem?_map, List.getElem?_range hk] at this
    simpa [List.map_const', Nat.mul_comm] using this
  have houter := getElem?_flatMap_range (fun b => (List.range (bases.getD b default).2).flatMap
      fun t => (List.range (count (bases.getD b default).1)).map fun k => (⟨b, t, k⟩ : BaseIndex))
    hb (r := t * count (bases.getD b default).1 + k)
    (by rw [hlen]; exact mul_add_lt_mul ht hk)
  simp only [hlen] at houter
  rw [blockPlaces, blockStart, Nat.add_assoc, houter, hinner]

/-- Place `(b, t, k)` sits exactly at `blockStart b t + k`. -/
theorem getElem?_blockPlaces_eq_some {i : Nat} {x : BaseIndex} :
    (blockPlaces bases count)[i]? = some x ↔
      x ∈ blockPlaces bases count ∧ i = blockStart bases count x.base x.copy + x.index := by
  constructor
  · intro h
    have hx : x ∈ blockPlaces bases count := List.mem_of_getElem? h
    obtain ⟨hb, ht, hk⟩ := (mem_blockPlaces bases count).1 hx
    refine ⟨hx, ?_⟩
    have h' := getElem?_blockPlaces bases count hb ht hk
    exact (List.getElem?_inj (List.getElem?_eq_some_iff.1 h).1 (nodup_blockPlaces bases count)).1
      (h.trans h'.symm)
  · rintro ⟨hx, rfl⟩
    obtain ⟨hb, ht, hk⟩ := (mem_blockPlaces bases count).1 hx
    exact getElem?_blockPlaces bases count hb ht hk

end Places

end FiniteElements.Element
