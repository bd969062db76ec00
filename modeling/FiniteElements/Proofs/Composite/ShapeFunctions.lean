import FiniteElements.Proofs.Composite.Faces
import FiniteElements.Proofs.Element.ComponentIndex

/-!
# The shape functions of a composite

A composite says nothing of its own about a shape function: it reads everything off the shape
function of a base. Shape function `i`, placed at shape function `k` of copy `t` of base `b`, is
dof `k` of the block of that copy (`CompositeRun.getElem?_cellLayout`), whose components start
after those of every earlier copy (`compOffset_blockIndex`). So the composite's shape function

* is nonzero in the components of the base's shape function moved past the components of the
  earlier copies (`CompositeRun.nonzeroComponents_place`),
* is additive and primitive exactly when the base's shape function is
  (`CompositeRun.restrictionIsAdditive_place`, `CompositeRun.isPrimitiveShape_place`),

and the composite's components are those of all copies in order, each naming its own base and its
component there (`CompositeRun.componentToBase_place`). Every shape function of every base has a
copy among the composite's, so the composite is primitive exactly when all its bases are
(`CompositeRun.isPrimitive_iff`).

## Main results

* `eq_blockIndex`: the block at a position is the copy its base and copy number name.
* `CompositeRun.nonzeroComponents_place`, `CompositeRun.componentToBase_place`,
  `CompositeRun.isPrimitive_iff`
* `composite_shapeFunctions`
-/

namespace FiniteElements.Element

set_option autoImplicit false

open FiniteElements.Cell

/-- **Each block is the copy its base and copy number name**: the block at position `β` sits at
`blockIndex b t` for its base `b` and its copy `t`. -/
theorem eq_blockIndex {bases : List (Store × Nat)} {β : Nat} (hβ : β < (blocksOf bases).length) :
    β = blockIndex bases ((blocksOf bases).getD β default).base
      ((blocksOf bases).getD β default).copy := by
  -- with one dof in every block, the places of the blocks list the blocks in order
  have hpos : (blockwise (blocksOf bases).length fun _ => 1)[β]? = some ⟨β, 0⟩ := by
    have := getElem?_flatMap_range_of_length
      (f := fun β => (List.range 1).map (BlockDof.mk β)) (n := fun _ => 1) (fun _ => by simp) hβ
      (r := 0) Nat.one_pos
    simpa [blockwise, List.map_const'] using this
  have hget : (blockPlaces bases fun _ => 1)[β]? = some (blockPlace (blocksOf bases) ⟨β, 0⟩) := by
    rw [← map_blockPlace_blockwise bases fun _ => 1, List.getElem?_map, hpos]
    rfl
  have hβ' := ((getElem?_blockPlaces_eq_some bases fun _ => 1).1 hget).2
  simpa [blockStart, blockIndex, blockPlace, blockAt] using hβ'

/-- The components of copy `t` of base `b` start after those of the earlier copies. -/
theorem compOffset_blockIndex {bases : List (Store × Nat)} {b t : Nat} (hb : b < bases.length)
    (ht : t < (bases.getD b default).2) :
    ((blocksOf bases).getD (blockIndex bases b t) default).compOffset =
      blockStart bases (·.components.toNat) b t := by
  rw [compOffset_getD_blocksOf (blockIndex_lt hb ht)]
  exact sum_range_blocksOf hb ht (·.components.toNat)

/-- A moved mask selects component `c` exactly when `c` is past the block's first component and
the block mask selects it there. -/
theorem get_shiftMask (blk : Block) {n : Nat} {m : Mask} (h : blk.compOffset + m.size ≤ n)
    (c : Nat) : (shiftMask blk n m).get c = (decide (blk.compOffset ≤ c) && m.get (c - blk.compOffset)) := by
  unfold shiftMask Mask.get
  rw [List.getD_eq_getElem?_getD, List.getElem?_map]
  by_cases hc : c < n
  · simp [List.getElem?_range hc]
  · -- past the composite's components the block mask has no entries either
    have hlen : m.bits.length ≤ c - blk.compOffset := by
      simp only [Mask.size] at h
      omega
    simp [hc, List.getD_eq_getElem?_getD, List.getElem?_eq_none hlen]

/-- The component table of a composite: the components of every block in order, each naming the
block's base and its component there. -/
theorem componentToBase_of_systemTables {c : Hypercube} {p : Packing} {blocks : List Block}
    {cell face : List BlockDof} {fd : DofLayout} {t : IndexTables} {fm : Option (List (List Nat))}
    (h : systemTables c p blocks cell face fd = .ok (t, fm)) :
    t.componentToBase = blocks.flatMap fun blk =>
      (List.range blk.store.components.toNat).map fun k => ⟨blk.base, k⟩ := by
  unfold systemTables at h
  cases p with
  | blocked =>
    simp only [bind_eq_ok] at h
    obtain ⟨check, -, table, -, h⟩ := h
    simp only [pure, Except.pure, Except.ok.injEq, Prod.mk.injEq] at h
    obtain ⟨_, -, rfl, -⟩ := h
    rfl
  | interleaved | unknown _ =>
    simp only [pure, Except.pure, bind, Except.bind, Except.ok.injEq, Prod.mk.injEq] at h
    obtain ⟨rfl, -⟩ := h
    rfl

namespace Store

variable {s : Store}

theorem restrictionIsAdditive_of_lt {i : Nat} (hi : (i : Int) < s.dofsPerCell) :
    s.restrictionIsAdditive i = .ok (s.additive.getD i false) := by
  simp [restrictionIsAdditive, checkIndex_of_lt hi, bind, Except.bind, pure, Except.pure]

theorem isPrimitiveShape_of_lt {i : Nat} (hi : (i : Int) < s.dofsPerCell) :
    s.isPrimitiveShape i = .ok ((s.masks.getD i default).count == 1) := by
  simp [isPrimitiveShape, nNonzeroComponents_of_lt hi, bind, Except.bind, pure, Except.pure]

end Store

namespace CompositeRun

variable {p : Packing} {specs : List (Option Store × Int)} {E : Store}
  (r : CompositeRun p specs E)

theorem additive_store : E.additive = r.definition.additive := by
  obtain ⟨R, P, C, F, -, -, -, -, hE⟩ := Store.assemble_eq_ok r.assemble_eq
  exact congrArg Store.additive hE

include r in
theorem components_store : E.components = summedComponents (blocksOf r.bases) := by
  obtain ⟨c, -, -, -, -, hcomp, -⟩ := DofLayout.wf_of_ofCounts? r.layout_eq
  rw [Store.components, r.layout_store, hcomp]

theorem componentToBase_eq : E.tables.componentToBase = (blocksOf r.bases).flatMap fun blk =>
    (List.range blk.store.components.toNat).map fun k => ⟨blk.base, k⟩ := by
  rw [r.tables_store, componentToBase_of_systemTables r.tables_eq]

include r in
/-- **The components of a composite**, base by base. -/
theorem components_bases :
    E.components = (r.bases.map fun x => (x.2 : Int) * x.1.components).sum := by
  rw [r.components_store, summedComponents, sum_blocksOf r.bases Store.components]

variable (hwf : ∀ x ∈ r.bases, x.1.WellFormed)
include hwf

/-- **A shape function of a composite is a dof of the block its place names**: placed at dof `k` of
copy `t` of base `b`, it is dof `k` of block `blockIndex b t`. -/
theorem getElem?_cellLayout {i : Int} {x : BaseIndex} (hi : E.systemToBaseIndex i = .ok x) :
    0 ≤ i ∧ (cellLayout r.cell p (blocksOf r.bases))[i.toNat]? =
        some ⟨blockIndex r.bases x.base x.copy, x.index⟩ ∧
      x ∈ blockPlaces r.bases (·.dofsPerCell.toNat) := by
  obtain ⟨hi0, hilt⟩ := Store.systemToBaseIndex_lt hi
  obtain ⟨y, hy, hiy⟩ := (r.systemToBaseIndex_numbering hwf).mapsTo i hi0 hilt
  rw [hi, Except.ok.injEq] at hiy
  subst hiy
  have hn : i.toNat < (cellLayout r.cell p (blocksOf r.bases)).length := by
    have := r.length_cellLayout
    omega
  obtain ⟨hβ, -⟩ := r.mem_cellLayout hwf (List.getElem_mem hn)
  -- the table lists the places of the layout
  have hx : blockPlace (blocksOf r.bases) (cellLayout r.cell p (blocksOf r.bases))[i.toNat] = x := by
    unfold Store.systemToBaseIndex at hi
    rw [r.systemToBase_eq] at hi
    obtain ⟨-, -, hget⟩ := lookup_eq_ok.1 hi
    rw [← hget, List.getD_eq_getElem?_getD, List.getElem?_map, List.getElem?_eq_getElem hn]
    rfl
  refine ⟨hi0, ?_, hy⟩
  rw [List.getElem?_eq_getElem hn, ← hx]
  simp only [blockPlace, blockAt]
  rw [← eq_blockIndex hβ]

/-- The block of copy `t` of base `b` is a copy of that base, starting at the components of the
earlier copies, and it fits among the composite's components. -/
theorem block_place {b t : Nat} (hb : b < r.bases.length) (ht : t < (r.bases.getD b default).2) :
    ((blocksOf r.bases).getD (blockIndex r.bases b t) default).store = (r.bases.getD b default).1 ∧
      ((blocksOf r.bases).getD (blockIndex r.bases b t) default).compOffset =
        blockStart r.bases (·.components.toNat) b t ∧
      blockStart r.bases (·.components.toNat) b t + (r.bases.getD b default).1.components.toNat ≤
        (summedComponents (blocksOf r.bases)).toNat := by
  obtain ⟨hs, -, -⟩ := getD_blocksOf_blockIndex hb ht
  have hoff := compOffset_blockIndex hb ht
  have hle := r.compOffset_add_le hwf (blockIndex_lt hb ht)
  rw [hs, hoff] at hle
  exact ⟨hs, hoff, hle⟩

/-- **The mask of a shape function of a composite** is the mask of its place in its base, moved
past the components of the earlier copies. -/
theorem mask_place {i : Int} {x : BaseIndex} (hi : E.systemToBaseIndex i = .ok x) :
    E.masks.getD i.toNat default =
      shiftMask ((blocksOf r.bases).getD (blockIndex r.bases x.base x.copy) default)
        (summedComponents (blocksOf r.bases)).toNat
        ((r.bases.getD x.base default).1.masks.getD x.index default) := by
  obtain ⟨-, hcell, hx⟩ := r.getElem?_cellLayout hwf hi
  obtain ⟨hb, ht, -⟩ := (mem_blockPlaces _ _).1 hx
  obtain ⟨hs, -, -⟩ := r.block_place hwf hb ht
  rw [r.masks_store, r.masks_eq_map hwf, List.getD_eq_getElem?_getD, List.getElem?_map, hcell,
    Option.map_some, Option.getD_some]
  simp only [blockDofMask, blockAt, hs]

/-- The mask of the place of a shape function fits, moved, among the composite's components. -/
theorem mask_place_fits {x : BaseIndex} (hx : x ∈ blockPlaces r.bases (·.dofsPerCell.toNat)) :
    ((blocksOf r.bases).getD (blockIndex r.bases x.base x.copy) default).compOffset +
        ((r.bases.getD x.base default).1.masks.getD x.index default).size ≤
      (summedComponents (blocksOf r.bases)).toNat := by
  obtain ⟨hb, ht, hk⟩ := (mem_blockPlaces _ _).1 hx
  obtain ⟨-, hoff, hle⟩ := r.block_place hwf hb ht
  have hS := (r.base_wellFormed hwf hb).1
  have hlen : x.index < ((r.bases.getD x.base default).1.masks.length) := by
    have := hS.masks_length
    simp only [Store.dofsPerCell] at hk this
    omega
  have hsize := hS.mask_size _ (getD_mem_of_lt default hlen)
  rw [hoff]
  omega

/-- **A shape function of a composite is nonzero in the components of its place in its base**,
each moved past the components of the earlier copies. -/
theorem nonzeroComponents_place {i : Int} {x : BaseIndex} (hi : E.systemToBaseIndex i = .ok x) :
    ∃ m m', E.nonzeroComponents i = .ok m ∧
      (r.bases.getD x.base default).1.nonzeroComponents x.index = .ok m' ∧
      ∀ c, m.get c = true ↔
        ∃ c', m'.get c' = true ∧ c = blockStart r.bases (·.components.toNat) x.base x.copy + c' := by
  obtain ⟨hi0, -, hx⟩ := r.getElem?_cellLayout hwf hi
  obtain ⟨hb, ht, hk⟩ := (mem_blockPlaces _ _).1 hx
  obtain ⟨-, hoff, -⟩ := r.block_place hwf hb ht
  have hilt := (Store.systemToBaseIndex_lt hi).2
  obtain ⟨n, rfl⟩ := Int.eq_ofNat_of_zero_le hi0
  have hS := (r.base_wellFormed hwf hb).1
  refine ⟨_, _, Store.nonzeroComponents_of_lt hilt,
    Store.nonzeroComponents_of_lt (by simp only [Store.dofsPerCell] at hk ⊢; omega), fun c => ?_⟩
  have hmask := r.mask_place hwf hi
  rw [Int.toNat_natCast] at hmask
  rw [hmask, get_shiftMask _ (r.mask_place_fits hwf hx), hoff]
  constructor
  · intro h
    simp only [Bool.and_eq_true, decide_eq_true_eq] at h
    exact ⟨c - blockStart r.bases (·.components.toNat) x.base x.copy, h.2, by omega⟩
  · rintro ⟨c', hc', rfl⟩
    simp only [Bool.and_eq_true, decide_eq_true_eq, Nat.add_sub_cancel_left]
    exact ⟨Nat.le_add_right _ _, hc'⟩

/-- A shape function of a composite is as additive as its place in its base. -/
theorem restrictionIsAdditive_place {i : Int} {x : BaseIndex} (hi : E.systemToBaseIndex i = .ok x) :
    E.restrictionIsAdditive i = (r.bases.getD x.base default).1.restrictionIsAdditive x.index := by
  obtain ⟨hi0, hcell, hx⟩ := r.getElem?_cellLayout hwf hi
  obtain ⟨hb, ht, -⟩ := (mem_blockPlaces _ _).1 hx
  obtain ⟨hs, -, -⟩ := r.block_place hwf hb ht
  have hilt := (Store.systemToBaseIndex_lt hi).2
  obtain ⟨n, rfl⟩ := Int.eq_ofNat_of_zero_le hi0
  rw [Int.toNat_natCast] at hcell
  obtain ⟨hn, hget⟩ := List.getElem?_eq_some_iff.1 hcell
  have hlen := length_eq_of_mapM_eq_ok r.additive_eq
  -- the composite asked the block for the additivity of its dof
  have hadd := getElem_of_mapM_eq_ok r.additive_eq hn (by omega)
  simp only [hget, blockAt, hs] at hadd
  rw [Store.restrictionIsAdditive_of_lt hilt, r.additive_store, hadd, List.getD_eq_getElem?_getD,
    List.getElem?_eq_getElem (by omega), Option.getD_some]

/-- A shape function of a composite is primitive exactly when its place in its base is. -/
theorem isPrimitiveShape_place {i : Int} {x : BaseIndex} (hi : E.systemToBaseIndex i = .ok x) :
    E.isPrimitiveShape i = (r.bases.getD x.base default).1.isPrimitiveShape x.index := by
  obtain ⟨hi0, -, hx⟩ := r.getElem?_cellLayout hwf hi
  obtain ⟨-, -, hk⟩ := (mem_blockPlaces _ _).1 hx
  have hilt := (Store.systemToBaseIndex_lt hi).2
  have hmask := r.mask_place hwf hi
  obtain ⟨n, rfl⟩ := Int.eq_ofNat_of_zero_le hi0
  rw [Int.toNat_natCast] at hmask
  rw [Store.isPrimitiveShape_of_lt hilt,
    Store.isPrimitiveShape_of_lt (by simp only [Store.dofsPerCell] at hk ⊢; omega), hmask,
    count_shiftMask _ (r.mask_place_fits hwf hx)]

/-- **The components of a composite name their bases**: component `c` of copy `t` of base `b`
comes after the components of the earlier copies, and is component `c` of base `b`. -/
theorem componentToBase_place {b t c : Nat} (hb : b < r.bases.length)
    (ht : t < (r.bases.getD b default).2) (hc : c < (r.bases.getD b default).1.components.toNat) :
    E.componentToBase (blockStart r.bases (·.components.toNat) b t + c : Nat) = .ok ⟨b, c⟩ := by
  obtain ⟨hs, hoff, hle⟩ := r.block_place hwf hb ht
  obtain ⟨-, hbase, -⟩ := getD_blocksOf_blockIndex hb ht
  have hcomp : ((blockStart r.bases (·.components.toNat) b t + c : Nat) : Int) < E.components := by
    have hpos : 0 ≤ summedComponents (blocksOf r.bases) := by
      rw [← r.components_store]
      exact Int.le_of_lt (r.wellFormed hwf).layout_wf.components_pos
    rw [r.components_store]
    omega
  -- the table lists the blocks' components block by block
  have htable : E.tables.componentToBase = (List.range (blocksOf r.bases).length).flatMap fun β =>
      (List.range ((blocksOf r.bases).getD β default).store.components.toNat).map
        fun k => (⟨((blocksOf r.bases).getD β default).base, k⟩ : BaseComponent) := by
    rw [r.componentToBase_eq, List.flatMap_def, List.flatMap_def, ← map_range_getD (blocksOf r.bases)]
  have hentry := getElem?_flatMap_range_of_length
    (n := fun β => ((blocksOf r.bases).getD β default).store.components.toNat)
    (f := fun β => (List.range ((blocksOf r.bases).getD β default).store.components.toNat).map
      fun k => (⟨((blocksOf r.bases).getD β default).base, k⟩ : BaseComponent))
    (fun β => by simp) (blockIndex_lt hb ht) (r := c) (by rw [hs]; exact hc)
  rw [← compOffset_getD_blocksOf (blockIndex_lt hb ht), hoff, ← htable, List.getElem?_map,
    List.getElem?_range (by rw [hs]; exact hc), hbase] at hentry
  unfold Store.componentToBase
  rw [checkIndex_of_lt hcomp]
  simp only [bind, Except.bind, pure, Except.pure, List.getD_eq_getElem?_getD, hentry,
    Option.map_some, Option.getD_some]

/-- **A composite is primitive exactly when all its bases are**: its shape functions are those of
every copy of every base, each nonzero in as many components as in its base. -/
theorem isPrimitive_iff : E.isPrimitive = true ↔ ∀ x ∈ r.bases, x.1.isPrimitive = true := by
  have hE := r.wellFormed hwf
  have hnum := r.systemToBaseIndex_numbering hwf
  -- the mask of a shape function counts as many components as the mask of its place
  have hcount : ∀ (i : Int) (x : BaseIndex), E.systemToBaseIndex i = .ok x →
      (E.masks.getD i.toNat default).count =
        ((r.bases.getD x.base default).1.masks.getD x.index default).count := fun i x hi => by
    rw [r.mask_place hwf hi, count_shiftMask _ (r.mask_place_fits hwf (r.getElem?_cellLayout hwf hi).2.2)]
  simp only [Store.isPrimitive, List.all_eq_true, beq_iff_eq]
  constructor
  · intro hprim x hx m hm
    obtain ⟨b, hb, rfl⟩ := List.getElem_of_mem hx
    obtain ⟨k, hk, rfl⟩ := List.getElem_of_mem hm
    have hgetb : r.bases.getD b default = r.bases[b] := by
      rw [List.getD_eq_getElem?_getD, List.getElem?_eq_getElem hb, Option.getD_some]
    have hmult := ((checkBases_eq_ok r.checkBases_eq).2 _ (List.getElem_mem hb)).1
    have hkS : k < r.bases[b].1.dofsPerCell.toNat := by
      have := (hwf _ (List.getElem_mem hb)).masks_length
      omega
    -- the shape function of the base has a copy among the composite's shape functions
    obtain ⟨i, hi0, hilt, hi⟩ := hnum.surjective ⟨b, 0, k⟩
      ((mem_blockPlaces _ _).2 ⟨hb, by rw [hgetb]; exact hmult, by rw [hgetb]; exact hkS⟩)
    have hmem : E.masks.getD i.toNat default ∈ E.masks :=
      getD_mem_of_lt default (by have := hE.masks_length; omega)
    rw [← hprim _ hmem, hcount i _ hi, hgetb, List.getD_eq_getElem?_getD,
      List.getElem?_eq_getElem hk, Option.getD_some]
  · intro hprim m hm
    obtain ⟨n, hn, rfl⟩ := List.getElem_of_mem hm
    have hnlt : (n : Int) < E.dofsPerCell := by
      have := hE.masks_length
      omega
    obtain ⟨x, hx, hi⟩ := hnum.mapsTo n (Int.natCast_nonneg n) hnlt
    obtain ⟨hb, -, hk⟩ := (mem_blockPlaces _ _).1 hx
    have hS := (r.base_wellFormed hwf hb).1
    have hkS : x.index < ((r.bases.getD x.base default).1.masks.length) := by
      have := hS.masks_length
      simp only [Store.dofsPerCell] at hk this
      omega
    have hc := hcount n x hi
    rw [Int.toNat_natCast, List.getD_eq_getElem?_getD, List.getElem?_eq_getElem hn,
      Option.getD_some] at hc
    rw [hc]
    exact hprim _ (getD_mem_of_lt default hb) _ (getD_mem_of_lt default hkS)

end CompositeRun

/-- **The shape functions of a composite are those of its bases.** Take a composite of built bases
and count the components of the copies before copy `t` of base `b` as its offset. A shape function
placed at shape function `k` of copy `t` of base `b` is nonzero in the components of `k` moved by
that offset, and is additive and primitive exactly when `k` is; component `c` of that copy is
component `c` of base `b`. The composite has the components of all copies, and is primitive
exactly when every base is. -/
theorem composite_shapeFunctions {p : Packing} {bases : List (Store × Nat)} {E : Store}
    (h : Store.composite p (asSpecs bases) = .ok E) (hbuilt : ∀ x ∈ bases, x.1.Built) :
    E.components = (bases.map fun x => (x.2 : Int) * x.1.components).sum ∧
      (E.isPrimitive = true ↔ ∀ x ∈ bases, x.1.isPrimitive = true) ∧
      (∀ i x, E.systemToBaseIndex i = .ok x → ∃ m m', E.nonzeroComponents i = .ok m ∧
        (bases.getD x.base default).1.nonzeroComponents x.index = .ok m' ∧
        (∀ c, m.get c = true ↔
          ∃ c', m'.get c' = true ∧ c = blockStart bases (·.components.toNat) x.base x.copy + c') ∧
        E.restrictionIsAdditive i = (bases.getD x.base default).1.restrictionIsAdditive x.index ∧
        E.isPrimitiveShape i = (bases.getD x.base default).1.isPrimitiveShape x.index) ∧
      ∀ b < bases.length, ∀ t < (bases.getD b default).2,
        ∀ c < (bases.getD b default).1.components.toNat,
          E.componentToBase (blockStart bases (·.components.toNat) b t + c : Nat) = .ok ⟨b, c⟩ := by
  obtain ⟨r⟩ := Store.composite_eq_ok h
  -- the run checked exactly the given bases
  have hb : bases = r.bases := asSpecs_injective (checkBases_eq_ok r.checkBases_eq).1
  have hwf : ∀ x ∈ r.bases, x.1.WellFormed := fun x hx => (hbuilt x (hb ▸ hx)).wellFormed
  rw [hb]
  refine ⟨r.components_bases, r.isPrimitive_iff hwf, fun i x hi => ?_,
    fun b hb t ht c hc => r.componentToBase_place hwf hb ht hc⟩
  obtain ⟨m, m', hm, hm', hsel⟩ := r.nonzeroComponents_place hwf hi
  exact ⟨m, m', hm, hm', hsel, r.restrictionIsAdditive_place hwf hi, r.isPrimitiveShape_place hwf hi⟩

theorem linearSegmentPair_shapeFunctions :
    Store.composite .blocked (asSpecs [(Store.linearSegment, 2)]) = .ok linearSegmentPair ∧
      (∀ x ∈ [(Store.linearSegment, 2)], x.1.Built) ∧
      linearSegmentPair.components =
        ([(Store.linearSegment, 2)].map fun x => (x.2 : Int) * x.1.components).sum ∧
      (linearSegmentPair.isPrimitive = true ↔
        ∀ x ∈ [(Store.linearSegment, 2)], x.1.isPrimitive = true) ∧
      (∀ i x, linearSegmentPair.systemToBaseIndex i = .ok x → ∃ m m',
        linearSegmentPair.nonzeroComponents i = .ok m ∧
        ([(Store.linearSegment, 2)].getD x.base default).1.nonzeroComponents x.index = .ok m' ∧
        (∀ c, m.get c = true ↔ ∃ c', m'.get c' = true ∧
          c = blockStart [(Store.linearSegment, 2)] (·.components.toNat) x.base x.copy + c') ∧
        linearSegmentPair.restrictionIsAdditive i =
          ([(Store.linearSegment, 2)].getD x.base default).1.restrictionIsAdditive x.index ∧
        linearSegmentPair.isPrimitiveShape i =
          ([(Store.linearSegment, 2)].getD x.base default).1.isPrimitiveShape x.index) ∧
      ∀ b < [(Store.linearSegment, 2)].length, ∀ t < ([(Store.linearSegment, 2)].getD b default).2,
        ∀ c < ([(Store.linearSegment, 2)].getD b default).1.components.toNat,
          linearSegmentPair.componentToBase
            (blockStart [(Store.linearSegment, 2)] (·.components.toNat) b t + c : Nat) = .ok ⟨b, c⟩ :=
  ⟨linearSegmentPair_eq, linearSegmentPair_bases_built,
    composite_shapeFunctions linearSegmentPair_eq linearSegmentPair_bases_built⟩

end FiniteElements.Element
