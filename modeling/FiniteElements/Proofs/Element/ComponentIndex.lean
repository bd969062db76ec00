import FiniteElements.Proofs.Element.Built

/-!
# Component indices of constructed elements

A shape function nonzero in exactly one vector component `c` has the component index `(c, r)`,
where `r` counts the shape functions before it that are nonzero in `c` alone
(`Store.primitiveRank`). The reverse lookup `componentToSystemIndex` scans the component table for
the first entry equal to `(c, r)`. No two shape functions share an index
(`componentEntry_injective`), so the first such entry is the only one: the lookup finds every
shape function from its index, and it fails, with `noComponentIndex`, exactly on the pairs that
no shape function has.

All of this follows from `Store.WellFormed`, which records that the component table numbers the
store's own masks. A composite does not number its masks afresh but relabels its bases' tables;
`Store.Built.wellFormed` shows that the relabelled table is that numbering all the same.

## Main definitions

* `Store.primitiveRank`, `Store.primitiveCount`

## Main results

* `Store.WellFormed.componentToSystemIndex_of_entry`: the lookup finds a shape function from its
  index.
* `Store.WellFormed.exists_componentToSystemIndex_iff`: the lookup succeeds exactly on the
  indices that some shape function has.
* `Store.Built.component_indices`: the component indices of a constructed element.
-/

namespace FiniteElements.Element

set_option autoImplicit false

/-- Component indices compare field by field. -/
instance : LawfulBEq ComponentIndex where
  rfl {a} := by
    rcases a with ⟨c, r⟩
    change (c == c && r == r) = true
    simp
  eq_of_beq {a b} h := by
    rcases a with ⟨c, r⟩
    rcases b with ⟨c', r'⟩
    change (c == c' && r == r') = true at h
    simp only [Bool.and_eq_true, beq_iff_eq] at h
    rw [h.1, h.2]

namespace Store

/-- The shape functions before `i` nonzero in component `c` alone. -/
def primitiveRank (s : Store) (c i : Nat) : Nat :=
  (s.masks.take i).countP fun m => m.single? == some c

/-- The shape functions nonzero in component `c` alone. -/
def primitiveCount (s : Store) (c : Nat) : Nat :=
  s.masks.countP fun m => m.single? == some c

section Lookup

variable {s : Store}

theorem nonzeroComponents_of_lt {i : Nat} (hi : (i : Int) < s.dofsPerCell) :
    s.nonzeroComponents i = .ok (s.masks.getD i default) := by
  simp [nonzeroComponents, checkIndex_of_lt hi, bind, Except.bind, pure, Except.pure]

theorem nNonzeroComponents_of_lt {i : Nat} (hi : (i : Int) < s.dofsPerCell) :
    s.nNonzeroComponents i = .ok (s.masks.getD i default).count := by
  simp [nNonzeroComponents, checkIndex_of_lt hi, bind, Except.bind, pure, Except.pure]

/-- A shape function in range fails to have a component index only by not being primitive. -/
theorem systemToComponentIndex_eq_report_iff {i : Nat} (hi : (i : Int) < s.dofsPerCell) :
    s.systemToComponentIndex i = report (.notPrimitive s.name i (s.masks.getD i default)) ↔
      (s.masks.getD i default).count ≠ 1 := by
  rw [systemToComponentIndex_of_lt hi]
  by_cases h : (s.masks.getD i default).count = 1
  · rw [if_pos h]
    simp only [report, reduceCtorEq, false_iff, not_not]
    exact h
  · rw [if_neg h]
    exact iff_of_true rfl h

/-- The reverse lookup answers with the first table entry equal to `(c, r)`, for a component in
range and a rank that is not negative. -/
theorem componentToSystemIndex_eq_ok {c r : Int} {i : Nat} :
    s.componentToSystemIndex c r = .ok i ↔ 0 ≤ c ∧ c < s.components ∧ 0 ≤ r ∧
      s.tables.systemToComponent.findIdx? (· == ⟨c, r⟩) = some i := by
  unfold componentToSystemIndex
  dsimp only
  by_cases h : 0 ≤ c ∧ c < s.components ∧ 0 ≤ r
  · rw [if_pos h]
    cases hf : s.tables.systemToComponent.findIdx? (· == ⟨c, r⟩) <;>
      simp [h, pure, Except.pure, report]
  · rw [if_neg h]
    simp only [report, reduceCtorEq, false_iff]
    tauto

/-- The reverse lookup fails with `noComponentIndex` or not at all. -/
theorem componentToSystemIndex_eq_report_iff {c r : Int} :
    s.componentToSystemIndex c r = report (.noComponentIndex s.name c r) ↔
      ¬∃ i, s.componentToSystemIndex c r = .ok i := by
  unfold componentToSystemIndex
  dsimp only
  by_cases h : 0 ≤ c ∧ c < s.components ∧ 0 ≤ r
  · rw [if_pos h]
    cases s.tables.systemToComponent.findIdx? (· == ⟨c, r⟩) <;> simp [pure, Except.pure, report]
  · simp [h, report]

end Lookup

namespace WellFormed

variable {s : Store} (hs : s.WellFormed)
include hs

/-- The single component of a shape function is a component of the store. -/
theorem lt_components_of_single? {i c : Nat} (hi : i < s.masks.length)
    (h : (s.masks.getD i default).single? = some c) : (c : Int) < s.components := by
  have hsize := hs.mask_size _ (getD_mem_of_lt default hi)
  have := Mask.lt_size_of_single? h
  omega

/-- The lookup finds a shape function from its component index. -/
theorem componentToSystemIndex_of_entry {i c r : Nat} (hi : i < s.masks.length)
    (h : componentEntry s.masks i = ⟨c, r⟩) : s.componentToSystemIndex c r = .ok i := by
  have hsingle := (componentEntry_eq_mk.1 h).1
  refine componentToSystemIndex_eq_ok.2 ⟨Int.natCast_nonneg c,
    hs.lt_components_of_single? hi hsingle, Int.natCast_nonneg r, ?_⟩
  rw [hs.systemToComponent_eq, List.findIdx?_eq_some_iff_getElem]
  refine ⟨by simpa using hi, by simpa using h, fun j hj => ?_⟩
  -- an earlier shape function with the same index would be this one
  simp only [List.getElem_map, List.getElem_range, beq_iff_eq]
  intro hj'
  have := componentEntry_injective (by omega) hi hj' h
  omega

/-- What the lookup finds has the index it was asked for. -/
theorem entry_of_componentToSystemIndex {c r : Int} {i : Nat}
    (h : s.componentToSystemIndex c r = .ok i) :
    i < s.masks.length ∧ componentEntry s.masks i = ⟨c, r⟩ := by
  obtain ⟨-, -, -, hfind⟩ := componentToSystemIndex_eq_ok.1 h
  rw [hs.systemToComponent_eq, List.findIdx?_eq_some_iff_getElem] at hfind
  obtain ⟨hi, heq, -⟩ := hfind
  simp only [List.length_map, List.length_range, List.getElem_map, List.getElem_range,
    beq_iff_eq] at hi heq
  exact ⟨hi, heq⟩

/-- **The lookup succeeds exactly on the indices some shape function has:** a component of the
store and a rank below the number of its primitive shape functions. -/
theorem exists_componentToSystemIndex_iff {c r : Int} :
    (∃ i, s.componentToSystemIndex c r = .ok i) ↔
      0 ≤ c ∧ c < s.components ∧ 0 ≤ r ∧ r < s.primitiveCount c.toNat := by
  constructor
  · rintro ⟨i, h⟩
    obtain ⟨hc, hlt, hr, -⟩ := componentToSystemIndex_eq_ok.1 h
    obtain ⟨hi, hentry⟩ := hs.entry_of_componentToSystemIndex h
    have hentry' : componentEntry s.masks i = ⟨c.toNat, r.toNat⟩ := by
      rw [hentry, Int.toNat_of_nonneg hc, Int.toNat_of_nonneg hr]
    have := rank_lt_countP hi hentry'
    exact ⟨hc, hlt, hr, by unfold primitiveCount; omega⟩
  · rintro ⟨hc, -, hr, hcount⟩
    have hrank : r.toNat < s.masks.countP fun m => m.single? == some c.toNat := by
      unfold primitiveCount at hcount
      omega
    obtain ⟨i, hi, hentry⟩ := exists_componentEntry_eq hrank
    refine ⟨i, ?_⟩
    have := hs.componentToSystemIndex_of_entry hi hentry
    rwa [Int.toNat_of_nonneg hc, Int.toNat_of_nonneg hr] at this

/-- A shape function nonzero in `c` alone has the index `(c, r)`, `r` its rank in `c`, and the
lookup of that index finds it. -/
theorem systemToComponentIndex_of_single? {i c : Nat} (hi : (i : Int) < s.dofsPerCell)
    (h : (s.masks.getD i default).single? = some c) :
    s.systemToComponentIndex i = .ok ⟨c, s.primitiveRank c i⟩ ∧
      s.componentToSystemIndex c (s.primitiveRank c i) = .ok i := by
  have hentry : componentEntry s.masks i = ⟨c, s.primitiveRank c i⟩ :=
    componentEntry_eq_mk.2 ⟨h, rfl⟩
  have hlen : i < s.masks.length := by
    have := hs.masks_length
    omega
  refine ⟨?_, hs.componentToSystemIndex_of_entry hlen hentry⟩
  rw [hs.systemToComponentIndex_eq hi, if_pos (Mask.single?_eq_some.1 h).1, hentry]

end WellFormed

/-- **The component indices of a constructed element.** Every shape function `i` in range is
nonzero in the components of its mask `m`. It has no component index, the call failing with
`notPrimitive`, exactly when `m` does not select one component alone; when `m` selects `c` alone its
index is `(c, r)`, `r` counting the earlier shape functions nonzero in `c` alone, and the lookup of
`(c, r)` gives `i` back. The lookup of any `(c, r)` succeeds when `c` is a component and
`0 ≤ r` is below the number of shape functions nonzero in `c` alone, and fails with
`noComponentIndex` otherwise. -/
theorem Built.component_indices {E : Store} (hE : E.Built) :
    (∀ i : Nat, (i : Int) < E.dofsPerCell → ∃ m : Mask,
      E.nonzeroComponents i = .ok m ∧ E.nNonzeroComponents i = .ok m.count ∧
      (E.systemToComponentIndex i = report (.notPrimitive E.name i m) ↔ m.count ≠ 1) ∧
      ∀ c : Nat, m.count = 1 → m.get c = true →
        E.systemToComponentIndex i = .ok ⟨c, E.primitiveRank c i⟩ ∧
        E.componentToSystemIndex c (E.primitiveRank c i) = .ok i) ∧
    ∀ c r : Int,
      ((∃ i, E.componentToSystemIndex c r = .ok i) ↔
        0 ≤ c ∧ c < E.components ∧ 0 ≤ r ∧ r < E.primitiveCount c.toNat) ∧
      (E.componentToSystemIndex c r = report (.noComponentIndex E.name c r) ↔
        ¬(0 ≤ c ∧ c < E.components ∧ 0 ≤ r ∧ r < E.primitiveCount c.toNat)) := by
  have hs := hE.wellFormed
  refine ⟨fun i hi => ⟨_, nonzeroComponents_of_lt hi, nNonzeroComponents_of_lt hi,
    systemToComponentIndex_eq_report_iff hi, fun c hcount hc =>
      hs.systemToComponentIndex_of_single? hi (Mask.single?_eq_some.2 ⟨hcount, hc⟩)⟩,
    fun c r => ⟨hs.exists_componentToSystemIndex_iff, ?_⟩⟩
  rw [componentToSystemIndex_eq_report_iff, hs.exists_componentToSystemIndex_iff]

theorem linearSegmentPair_component_indices : linearSegmentPair.Built ∧
    (∀ i : Nat, (i : Int) < linearSegmentPair.dofsPerCell → ∃ m : Mask,
      linearSegmentPair.nonzeroComponents i = .ok m ∧
      linearSegmentPair.nNonzeroComponents i = .ok m.count ∧
      (linearSegmentPair.systemToComponentIndex i =
          report (.notPrimitive linearSegmentPair.name i m) ↔ m.count ≠ 1) ∧
      ∀ c : Nat, m.count = 1 → m.get c = true →
        linearSegmentPair.systemToComponentIndex i = .ok ⟨c, linearSegmentPair.primitiveRank c i⟩ ∧
        linearSegmentPair.componentToSystemIndex c (linearSegmentPair.primitiveRank c i) = .ok i) ∧
    ∀ c r : Int,
      ((∃ i, linearSegmentPair.componentToSystemIndex c r = .ok i) ↔
        0 ≤ c ∧ c < linearSegmentPair.components ∧ 0 ≤ r ∧
          r < linearSegmentPair.primitiveCount c.toNat) ∧
      (linearSegmentPair.componentToSystemIndex c r =
          report (.noComponentIndex linearSegmentPair.name c r) ↔
        ¬(0 ≤ c ∧ c < linearSegmentPair.components ∧ 0 ≤ r ∧
          r < linearSegmentPair.primitiveCount c.toNat)) :=
  ⟨linearSegmentPair_built, Built.component_indices linearSegmentPair_built⟩

end Store

end FiniteElements.Element
