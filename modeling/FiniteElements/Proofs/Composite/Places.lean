import FiniteElements.Proofs.Element.Built

/-!
# Where the dofs of a composite come from

Every dof of a composite is a dof of one copy of one base: its place `(b, t, k)`, read by
`Store.systemToBaseIndex` (and `Store.faceSystemToBaseIndex` for face dofs). The places of a
composite of well-formed stores run through every dof of every copy of every base exactly once
(`CompositeRun.systemToBaseIndex_numbering`, `CompositeRun.faceSystemToBaseIndex_numbering`):
the composite lists each block's dofs in the block's order (`CompositeRun.cell_ordered`), and
block by block these are the places in order (`map_blockPlace_blockwise`).

Where each place sits depends on the packing. A blocked composite puts the dofs of each copy
after those of all earlier copies (`CompositeRun.systemToBaseIndex_blocked`). An interleaved
composite numbers its dofs object kind by object kind and object by object, with its own offsets,
and on each object it puts the dofs of every copy in order
(`CompositeRun.systemToBaseIndex_interleaved`).

## Main definitions

* `FiniteElements.Element.Numbering`: a numbering of a list of places by an index range.

## Main results

* `numbering_of_perm`: a table that rearranges distinct places numbers them.
* `CompositeRun.systemToBaseIndex_numbering`, `CompositeRun.faceSystemToBaseIndex_numbering`
* `CompositeRun.systemToBaseIndex_blocked`, `CompositeRun.faceSystemToBaseIndex_blocked`
* `CompositeRun.systemToBaseIndex_interleaved`, `CompositeRun.faceSystemToBaseIndex_interleaved`
-/

namespace FiniteElements.Element

set_option autoImplicit false

open FiniteElements.Cell FiniteElements.Numeric

/-- `f` numbers `places` by the indices `0 … n - 1`: every index has a place among them, no two
indices have the same place, and every place is some index's. -/
structure Numbering (f : Int → Outcome BaseIndex) (n : Int) (places : List BaseIndex) : Prop where
  mapsTo : ∀ i, 0 ≤ i → i < n → ∃ x ∈ places, f i = .ok x
  injective : ∀ i j x, f i = .ok x → f j = .ok x → i = j
  surjective : ∀ x ∈ places, ∃ i, 0 ≤ i ∧ i < n ∧ f i = .ok x

/-- Places in blocked order: place `(b, t, k)` at index `blockStart b t + k`, and nothing else. -/
def BlockedPlaces (f : Int → Outcome BaseIndex) (bases : List (Store × Nat)) (count : Store → Nat) :
    Prop :=
  ∀ i x, f i = .ok x ↔ x ∈ blockPlaces bases count ∧
    i = (blockStart bases count x.base x.copy + x.index : Nat)

/-- Places in interleaved order, for the kinds below `top` with `objects` objects each and the
offsets `first` of `fd`: dof `d` of copy `t` of base `b` on object `o` of kind `κ` comes after the
dofs of the earlier kinds and objects and of the earlier copies on that object, and is the dof
the base numbers there. -/
def InterleavedPlaces (f : Int → Outcome BaseIndex) (bases : List (Store × Nat))
    (objects : List Nat) (top : Nat) (first : DofLayout → Nat → Int) (fd : DofLayout) : Prop :=
  ∀ κ o b t d, κ < top → o < objects.getD κ 0 → b < bases.length →
    t < (bases.getD b default).2 → d < ((bases.getD b default).1.layout.countOf κ).toNat →
    f (first fd κ + o * fd.countOf κ + (blockStart bases (fun S => (S.layout.countOf κ).toNat) b t : Nat) +
        d) =
      .ok ⟨b, t, (first (bases.getD b default).1.layout κ +
        o * (bases.getD b default).1.layout.countOf κ + d).toNat⟩

section Lookup

variable {what : Counted} {tbl : List BaseIndex} {n : Int}

theorem lookup_eq_ok {i : Int} {x : BaseIndex} :
    (do let k ← checkIndex what i n; pure (tbl.getD k default) : Outcome BaseIndex) = .ok x ↔
      0 ≤ i ∧ i < n ∧ tbl.getD i.toNat default = x := by
  rw [bind_eq_ok]
  constructor
  · rintro ⟨k, hk, h⟩
    obtain ⟨h0, hn, rfl⟩ := checkIndex_eq_ok.1 hk
    exact ⟨h0, hn, Except.ok.inj h⟩
  · rintro ⟨h0, hn, rfl⟩
    exact ⟨i.toNat, checkIndex_eq_ok.2 ⟨h0, hn, rfl⟩, rfl⟩

theorem lookup_of_getElem? {k : Nat} {x : BaseIndex} (hlen : (tbl.length : Int) = n)
    (h : tbl[k]? = some x) :
    (do let k ← checkIndex what (k : Int) n; pure (tbl.getD k default) : Outcome BaseIndex) = .ok x := by
  have hlt := (List.getElem?_eq_some_iff.1 h).1
  refine lookup_eq_ok.2 ⟨Int.natCast_nonneg _, by omega, ?_⟩
  rw [Int.toNat_natCast, List.getD_eq_getElem?_getD, h, Option.getD_some]

/-- **A table that rearranges distinct places numbers them**, looked up by a checked index. -/
theorem numbering_of_perm {places : List BaseIndex} (hperm : tbl.Perm places)
    (hnodup : places.Nodup) (hlen : (tbl.length : Int) = n) :
    Numbering (fun i => do let k ← checkIndex what i n; pure (tbl.getD k default)) n places where
  mapsTo i h0 hn := by
    refine ⟨tbl.getD i.toNat default, hperm.subset (getD_mem_of_lt default (by omega)), ?_⟩
    exact lookup_eq_ok.2 ⟨h0, hn, rfl⟩
  injective i j x hi hj := by
    obtain ⟨hi0, hin, hix⟩ := lookup_eq_ok.1 hi
    obtain ⟨hj0, hjn, hjx⟩ := lookup_eq_ok.1 hj
    -- distinct entries of the table are distinct places
    rw [List.getD_eq_getElem?_getD, List.getElem?_eq_getElem (by omega), Option.getD_some] at hix hjx
    have := (hperm.nodup_iff.2 hnodup).getElem_inj_iff.1 (hix.trans hjx.symm)
    omega
  surjective x hx := by
    obtain ⟨k, hk, hkx⟩ := List.getElem_of_mem (hperm.symm.subset hx)
    refine ⟨k, by omega, by omega, lookup_eq_ok.2 ⟨by omega, by omega, ?_⟩⟩
    rw [Int.toNat_natCast, List.getD_eq_getElem?_getD, List.getElem?_eq_getElem hk, Option.getD_some,
      hkx]

end Lookup

/-- **Block by block, the block dofs are the places in order.** -/
theorem map_blockPlace_blockwise (bases : List (Store × Nat)) (count : Store → Nat) :
    (blockwise (blocksOf bases).length fun β => count ((blocksOf bases).getD β default).store).map
      (blockPlace (blocksOf bases)) = blockPlaces bases count := by
  have hblocks : (blockwise (blocksOf bases).length fun β =>
      count ((blocksOf bases).getD β default).store).map (blockPlace (blocksOf bases)) =
      (blocksOf bases).flatMap fun blk =>
        (List.range (count blk.store)).map fun k => (⟨blk.base, blk.copy, k⟩ : BaseIndex) := by
    rw [blockwise, List.map_flatMap, List.flatMap_def, List.flatMap_def,
      ← map_range_getD (blocksOf bases) fun blk =>
        (List.range (count blk.store)).map fun k => (⟨blk.base, blk.copy, k⟩ : BaseIndex)]
    simp [blockPlace, blockAt, Function.comp_def]
  have hkeys : ((blocksOf bases).flatMap fun blk =>
      (List.range (count blk.store)).map fun k => (⟨blk.base, blk.copy, k⟩ : BaseIndex)) =
      (blockKeys bases).flatMap fun key =>
        (List.range (count key.1)).map fun k => (⟨key.2.1, key.2.2, k⟩ : BaseIndex) := by
    rw [← map_blocksOf, List.flatMap_map]
  rw [hblocks, hkeys, blockKeys, List.flatMap_assoc]
  simp only [List.flatMap_map]
  rfl

/-- **Where a place sits among the interleaved dofs.** Dof `d` of copy `t` of base `b` on object
`o` of kind `κ` comes after the dofs of the earlier kinds, of the earlier objects of kind `κ`, and
of the earlier copies on object `o`. -/
theorem getElem?_places_interleaved (bases : List (Store × Nat)) (objects : List Nat) (top : Nat)
    (first : DofLayout → Nat → Int) {κ o b t d : Nat} (hκ : κ < top) (ho : o < objects.getD κ 0)
    (hb : b < bases.length) (ht : t < (bases.getD b default).2)
    (hd : d < ((bases.getD b default).1.layout.countOf κ).toNat) :
    ((interleavedDofs (blocksOf bases) objects top first).map (blockPlace (blocksOf bases)))[
        objectOffset (objects.getD · 0) (kindTotal (blocksOf bases)) κ +
          o * kindTotal (blocksOf bases) κ +
          blockStart bases (fun S => (S.layout.countOf κ).toNat) b t + d]? =
      some ⟨b, t, (first (bases.getD b default).1.layout κ +
        o * (bases.getD b default).1.layout.countOf κ + d).toNat⟩ := by
  obtain ⟨hs, hbase, hcopy⟩ := getD_blocksOf_blockIndex hb ht
  have hpos := @getElem?_interleavedDofs (blocksOf bases) objects top first κ o
    (blockIndex bases b t) d hκ ho (blockIndex_lt hb ht) (by simp only [kindCount, hs]; exact hd)
  -- the blocks before copy `t` of base `b` are the copies before it
  rw [sum_range_blocksOf hb ht fun S => (S.layout.countOf κ).toNat] at hpos
  rw [List.getElem?_map, hpos]
  simp only [blockPlace, blockAt, hbase, hcopy, hs, Option.map_some]

namespace CompositeRun

variable {p : Packing} {specs : List (Option Store × Int)} {E : Store}
  (r : CompositeRun p specs E)

theorem systemToBase_eq : E.tables.systemToBase =
    (cellLayout r.cell p (blocksOf r.bases)).map (blockPlace (blocksOf r.bases)) := by
  rw [r.tables_store, (systemTables_eq_ok r.tables_eq).2.1]

theorem faceSystemToBase_eq : E.tables.faceSystemToBase =
    (faceLayout r.cell p (blocksOf r.bases)).map (blockPlace (blocksOf r.bases)) := by
  rw [r.tables_store, (systemTables_eq_ok r.tables_eq).2.2.1]

include r in
theorem length_systemToBase : (E.tables.systemToBase.length : Int) = E.dofsPerCell := by
  rw [r.systemToBase_eq, List.length_map]
  exact r.length_cellLayout

/-- A blocked composite lists the places in order. -/
theorem systemToBase_blocked (hp : p = .blocked) :
    E.tables.systemToBase = blockPlaces r.bases (·.dofsPerCell.toNat) := by
  subst hp
  rw [r.systemToBase_eq, cellLayout_blocked]
  exact map_blockPlace_blockwise r.bases (·.dofsPerCell.toNat)

theorem faceSystemToBase_blocked (hp : p = .blocked) :
    E.tables.faceSystemToBase = blockPlaces r.bases (·.layout.dofsPerFace.toNat) := by
  subst hp
  rw [r.faceSystemToBase_eq, faceLayout_blocked]
  exact map_blockPlace_blockwise r.bases (·.layout.dofsPerFace.toNat)

/-- Looking up a table that lists the places in order finds place `(b, t, k)` exactly at
`blockStart b t + k`. -/
theorem lookup_blockPlaces_eq_ok {what : Counted} {count : Store → Nat} {n i : Int} {x : BaseIndex}
    (hlen : ((blockPlaces r.bases count).length : Int) = n) :
    (do let k ← checkIndex what i n; pure ((blockPlaces r.bases count).getD k default) :
        Outcome BaseIndex) = .ok x ↔
      x ∈ blockPlaces r.bases count ∧ i = (blockStart r.bases count x.base x.copy + x.index : Nat) := by
  rw [lookup_eq_ok]
  constructor
  · rintro ⟨h0, hn, hx⟩
    have hget : (blockPlaces r.bases count)[i.toNat]? = some x := by
      rw [← hx, List.getD_eq_getElem?_getD, List.getElem?_eq_getElem (by omega), Option.getD_some]
    obtain ⟨hmem, hi⟩ := (getElem?_blockPlaces_eq_some _ _).1 hget
    exact ⟨hmem, by omega⟩
  · rintro ⟨hmem, rfl⟩
    have hget := (getElem?_blockPlaces_eq_some _ _).2 ⟨hmem, rfl⟩
    have hlt := (List.getElem?_eq_some_iff.1 hget).1
    refine ⟨by omega, by omega, ?_⟩
    rw [Int.toNat_natCast, List.getD_eq_getElem?_getD, hget, Option.getD_some]

/-- **In a blocked composite** the dofs of each copy of each base come after those of all earlier
copies, in the copy's own order. -/
theorem systemToBaseIndex_blocked (hp : p = .blocked) {i : Int} {x : BaseIndex} :
    E.systemToBaseIndex i = .ok x ↔ x ∈ blockPlaces r.bases (·.dofsPerCell.toNat) ∧
      i = (blockStart r.bases (·.dofsPerCell.toNat) x.base x.copy + x.index : Nat) := by
  have hlen := r.length_systemToBase
  rw [r.systemToBase_blocked hp] at hlen
  unfold Store.systemToBaseIndex
  rw [r.systemToBase_blocked hp]
  exact r.lookup_blockPlaces_eq_ok hlen

variable (hwf : ∀ x ∈ r.bases, x.1.WellFormed)
include hwf

theorem length_faceSystemToBase :
    (E.tables.faceSystemToBase.length : Int) = E.layout.dofsPerFace := by
  rw [r.faceSystemToBase_eq, List.length_map, (r.face_ordered hwf).length, map_range_blockFaces,
    r.dofsPerFace_eq hwf]
  exact natCast_sum_toNat _ fun blk hblk => (r.mem_wellFormed hwf hblk).1.face_nonneg

theorem faceSystemToBaseIndex_blocked (hp : p = .blocked) {j : Int} {x : BaseIndex} :
    E.faceSystemToBaseIndex j = .ok x ↔ x ∈ blockPlaces r.bases (·.layout.dofsPerFace.toNat) ∧
      j = (blockStart r.bases (·.layout.dofsPerFace.toNat) x.base x.copy + x.index : Nat) := by
  have hlen := r.length_faceSystemToBase hwf
  rw [r.faceSystemToBase_blocked hp] at hlen
  unfold Store.faceSystemToBaseIndex
  rw [r.faceSystemToBase_blocked hp]
  exact r.lookup_blockPlaces_eq_ok hlen

/-- **The places of a composite's dofs** are every dof of every copy of every base, each once. -/
theorem systemToBaseIndex_numbering :
    Numbering E.systemToBaseIndex E.dofsPerCell (blockPlaces r.bases (·.dofsPerCell.toNat)) := by
  have hperm : E.tables.systemToBase.Perm (blockPlaces r.bases (·.dofsPerCell.toNat)) := by
    have hplaces : (blockwise (blocksOf r.bases).length (blockCells (blocksOf r.bases))).map
        (blockPlace (blocksOf r.bases)) = blockPlaces r.bases (·.dofsPerCell.toNat) :=
      map_blockPlace_blockwise r.bases (·.dofsPerCell.toNat)
    rw [r.systemToBase_eq, ← hplaces]
    exact (r.cell_ordered hwf).perm.map _
  exact numbering_of_perm hperm (nodup_blockPlaces _ _) r.length_systemToBase

/-- **The places of a composite's face dofs** are every face dof of every copy of every base,
each once. -/
theorem faceSystemToBaseIndex_numbering :
    Numbering E.faceSystemToBaseIndex E.layout.dofsPerFace
      (blockPlaces r.bases (·.layout.dofsPerFace.toNat)) := by
  have hperm : E.tables.faceSystemToBase.Perm (blockPlaces r.bases (·.layout.dofsPerFace.toNat)) := by
    have hplaces : (blockwise (blocksOf r.bases).length (blockFaces (blocksOf r.bases))).map
        (blockPlace (blocksOf r.bases)) = blockPlaces r.bases (·.layout.dofsPerFace.toNat) :=
      map_blockPlace_blockwise r.bases (·.layout.dofsPerFace.toNat)
    rw [r.faceSystemToBase_eq, ← hplaces]
    exact (r.face_ordered hwf).perm.map _
  exact numbering_of_perm hperm (nodup_blockPlaces _ _) (r.length_faceSystemToBase hwf)

/-- The cell dofs of a composite, base by base. -/
theorem dofsPerCell_bases :
    E.dofsPerCell = (r.bases.map fun x => (x.2 : Int) * x.1.dofsPerCell).sum := by
  rw [r.dofsPerCell_eq hwf, ← sum_blocksOf r.bases Store.dofsPerCell]

/-- The face dofs of a composite, base by base. -/
theorem dofsPerFace_bases :
    E.layout.dofsPerFace = (r.bases.map fun x => (x.2 : Int) * x.1.layout.dofsPerFace).sum := by
  rw [r.dofsPerFace_eq hwf, ← sum_blocksOf r.bases fun S => S.layout.dofsPerFace]

theorem countOf_eq_kindTotal (hp : p = .interleaved) {κ : Nat} (hκ : κ ≤ r.cell.dim) :
    E.layout.countOf κ = (kindTotal (blocksOf r.bases) κ : Int) := by
  rw [r.layout_store, r.countOf_of_interleaved hwf hp hκ]
  exact (natCast_sum_toNat _ fun blk hblk =>
    (r.mem_wellFormed hwf hblk).1.layout_wf.count_nonneg κ).symm

/-- **In an interleaved composite** dof `d` of copy `t` of base `b` on object `o` of kind `κ` is
numbered with the composite's own offsets: after the dofs of the earlier kinds and of the earlier
objects of kind `κ`, and after those of the earlier copies on object `o`. In its copy it is the
dof the base numbers there. -/
theorem systemToBaseIndex_interleaved (hp : p = .interleaved) {κ o b t d : Nat}
    (hκ : κ ≤ r.cell.dim) (ho : o < r.cell.objectsPerCell.getD κ 0) (hb : b < r.bases.length)
    (ht : t < (r.bases.getD b default).2)
    (hd : d < ((r.bases.getD b default).1.layout.countOf κ).toNat) :
    E.systemToBaseIndex (E.layout.firstOf κ + o * E.layout.countOf κ +
        (blockStart r.bases (fun S => (S.layout.countOf κ).toNat) b t : Nat) + d) =
      .ok ⟨b, t, ((r.bases.getD b default).1.layout.firstOf κ +
        o * (r.bases.getD b default).1.layout.countOf κ + d).toNat⟩ := by
  have hplace := getElem?_places_interleaved r.bases r.cell.objectsPerCell (r.cell.dim + 1)
    DofLayout.firstOf (by omega) ho hb ht hd
  -- the index is the position of the place, with the composite's offsets exact
  have hidx : E.layout.firstOf κ + o * E.layout.countOf κ +
      (blockStart r.bases (fun S => (S.layout.countOf κ).toNat) b t : Nat) + d =
      ((objectOffset (r.cell.objectsPerCell.getD · 0) (kindTotal (blocksOf r.bases)) κ +
        o * kindTotal (blocksOf r.bases) κ +
        blockStart r.bases (fun S => (S.layout.countOf κ).toNat) b t + d : Nat) : Int) := by
    rw [r.countOf_eq_kindTotal hwf hp hκ, r.layout_store, r.firstOf_of_interleaved hwf hp hκ]
    simp only [Nat.cast_add, Nat.cast_mul]
  have hlen := r.length_systemToBase
  rw [hidx]
  subst hp
  unfold Store.systemToBaseIndex
  rw [r.systemToBase_eq] at hlen ⊢
  exact lookup_of_getElem? hlen hplace

/-- **In an interleaved composite** face dof `d` of copy `t` of base `b` on face object `o` of kind
`κ` is numbered with the composite's own face offsets, after the dofs of the earlier kinds and
objects and of the earlier copies on object `o`. -/
theorem faceSystemToBaseIndex_interleaved (hp : p = .interleaved) {κ o b t d : Nat}
    (hκ : κ < r.cell.dim) (ho : o < r.cell.objectsPerFace.getD κ 0) (hb : b < r.bases.length)
    (ht : t < (r.bases.getD b default).2)
    (hd : d < ((r.bases.getD b default).1.layout.countOf κ).toNat) :
    E.faceSystemToBaseIndex (E.layout.firstFaceOf κ + o * E.layout.countOf κ +
        (blockStart r.bases (fun S => (S.layout.countOf κ).toNat) b t : Nat) + d) =
      .ok ⟨b, t, ((r.bases.getD b default).1.layout.firstFaceOf κ +
        o * (r.bases.getD b default).1.layout.countOf κ + d).toNat⟩ := by
  have hplace := getElem?_places_interleaved r.bases r.cell.objectsPerFace r.cell.dim
    DofLayout.firstFaceOf hκ ho hb ht hd
  have hidx : E.layout.firstFaceOf κ + o * E.layout.countOf κ +
      (blockStart r.bases (fun S => (S.layout.countOf κ).toNat) b t : Nat) + d =
      ((objectOffset (r.cell.objectsPerFace.getD · 0) (kindTotal (blocksOf r.bases)) κ +
        o * kindTotal (blocksOf r.bases) κ +
        blockStart r.bases (fun S => (S.layout.countOf κ).toNat) b t + d : Nat) : Int) := by
    rw [r.countOf_eq_kindTotal hwf hp hκ.le, r.layout_store, r.firstFaceOf_of_interleaved hwf hp hκ]
    simp only [Nat.cast_add, Nat.cast_mul]
  have hlen := r.length_faceSystemToBase hwf
  rw [hidx]
  subst hp
  unfold Store.faceSystemToBaseIndex
  rw [r.faceSystemToBase_eq] at hlen ⊢
  exact lookup_of_getElem? hlen hplace

end CompositeRun

/-- **Where the dofs of a composite come from.** Take a composite of built bases, each with its
multiplicity. Its cell dofs are the cell dofs of all copies of all bases, and so are its face
dofs. Its places number every dof of every copy of every base exactly once, cell dofs and face
dofs alike. A blocked composite numbers each copy's dofs after those of all earlier copies. An
interleaved composite numbers them object kind by object kind and object by object, with its own
offsets, and puts the copies one after another on each object. -/
theorem composite_places {p : Packing} {bases : List (Store × Nat)} {E : Store}
    (h : Store.composite p (asSpecs bases) = .ok E) (hbuilt : ∀ x ∈ bases, x.1.Built) :
    E.dofsPerCell = (bases.map fun x => (x.2 : Int) * x.1.dofsPerCell).sum ∧
      E.layout.dofsPerFace = (bases.map fun x => (x.2 : Int) * x.1.layout.dofsPerFace).sum ∧
      Numbering E.systemToBaseIndex E.dofsPerCell (blockPlaces bases (·.dofsPerCell.toNat)) ∧
      Numbering E.faceSystemToBaseIndex E.layout.dofsPerFace
        (blockPlaces bases (·.layout.dofsPerFace.toNat)) ∧
      (p = .blocked → BlockedPlaces E.systemToBaseIndex bases (·.dofsPerCell.toNat) ∧
        BlockedPlaces E.faceSystemToBaseIndex bases (·.layout.dofsPerFace.toNat)) ∧
      (p = .interleaved →
        InterleavedPlaces E.systemToBaseIndex bases E.cell.objectsPerCell (E.cell.dim + 1)
          DofLayout.firstOf E.layout ∧
        InterleavedPlaces E.faceSystemToBaseIndex bases E.cell.objectsPerFace E.cell.dim
          DofLayout.firstFaceOf E.layout) := by
  obtain ⟨r⟩ := Store.composite_eq_ok h
  -- the run checked exactly the given bases
  have hb : bases = r.bases := asSpecs_injective (checkBases_eq_ok r.checkBases_eq).1
  have hwf : ∀ x ∈ r.bases, x.1.WellFormed := fun x hx => (hbuilt x (hb ▸ hx)).wellFormed
  rw [hb, r.cell_store]
  exact ⟨r.dofsPerCell_bases hwf, r.dofsPerFace_bases hwf, r.systemToBaseIndex_numbering hwf,
    r.faceSystemToBaseIndex_numbering hwf,
    fun hp => ⟨fun _ _ => r.systemToBaseIndex_blocked hp,
      fun _ _ => r.faceSystemToBaseIndex_blocked hwf hp⟩,
    fun hp => ⟨fun _ _ _ _ _ hκ ho hb ht hd => r.systemToBaseIndex_interleaved hwf hp (by omega) ho hb ht hd,
      fun _ _ _ _ _ hκ ho hb ht hd => r.faceSystemToBaseIndex_interleaved hwf hp hκ ho hb ht hd⟩⟩

theorem linearSegmentPair_places :
    Store.composite .blocked (asSpecs [(Store.linearSegment, 2)]) = .ok linearSegmentPair ∧
      (∀ x ∈ [(Store.linearSegment, 2)], x.1.Built) ∧
      linearSegmentPair.dofsPerCell =
        ([(Store.linearSegment, 2)].map fun x => (x.2 : Int) * x.1.dofsPerCell).sum ∧
      linearSegmentPair.layout.dofsPerFace =
        ([(Store.linearSegment, 2)].map fun x => (x.2 : Int) * x.1.layout.dofsPerFace).sum ∧
      Numbering linearSegmentPair.systemToBaseIndex linearSegmentPair.dofsPerCell
        (blockPlaces [(Store.linearSegment, 2)] (·.dofsPerCell.toNat)) ∧
      Numbering linearSegmentPair.faceSystemToBaseIndex linearSegmentPair.layout.dofsPerFace
        (blockPlaces [(Store.linearSegment, 2)] (·.layout.dofsPerFace.toNat)) ∧
      (Packing.blocked = .blocked →
        BlockedPlaces linearSegmentPair.systemToBaseIndex [(Store.linearSegment, 2)] (·.dofsPerCell.toNat) ∧
        BlockedPlaces linearSegmentPair.faceSystemToBaseIndex [(Store.linearSegment, 2)]
          (·.layout.dofsPerFace.toNat)) ∧
      (Packing.blocked = .interleaved →
        InterleavedPlaces linearSegmentPair.systemToBaseIndex [(Store.linearSegment, 2)]
          linearSegmentPair.cell.objectsPerCell (linearSegmentPair.cell.dim + 1) DofLayout.firstOf
          linearSegmentPair.layout ∧
        InterleavedPlaces linearSegmentPair.faceSystemToBaseIndex [(Store.linearSegment, 2)]
          linearSegmentPair.cell.objectsPerFace linearSegmentPair.cell.dim DofLayout.firstFaceOf
          linearSegmentPair.layout) :=
  ⟨linearSegmentPair_eq, linearSegmentPair_bases_built,
    composite_places linearSegmentPair_eq linearSegmentPair_bases_built⟩

end FiniteElements.Element
