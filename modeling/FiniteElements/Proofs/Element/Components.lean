import FiniteElements.Element.Definition
import FiniteElements.Proofs.Outcome

/-!
# Component indices of shape functions

A shape function is primitive when its mask selects exactly one vector component `c`
(`Mask.single?`). Its component index is `(c, r)`, where `r` counts the primitive shape functions
of component `c` before it (`componentEntry`); `numberComponents` computes exactly these indices
(`numberComponents_eq`).

Masks of one size combine entry by entry (`Mask.combine_eq_ok`); masks of two sizes stop the call
(`Mask.combine_of_size_ne`).

Within one component the ranks run through `0, 1, …` without repetition, so the index `(c, r)`
belongs to exactly one shape function as long as `r` is below the number of primitive shape
functions of `c` (`exists_componentEntry_eq`, `componentEntry_injective`).

## Main definitions

* `Mask.single?`, `FiniteElements.Element.componentEntry`

## Main results

* `Mask.single?_eq_some`: the single component is the one selected.
* `numberComponents_eq`: the component numbering, entry by entry.
* `exists_componentEntry_eq`, `componentEntry_injective`
* `Mask.combine_eq_ok`, `Mask.selected_eq_ok`: combining masks and reading their entries.
-/

namespace FiniteElements.Element

set_option autoImplicit false

namespace Mask

/-- The component a mask selects when it selects exactly one. -/
def single? (m : Mask) : Option Nat := if m.count = 1 then m.bits.findIdx? id else none

private theorem findIdx?_of_countP_one :
    ∀ (bits : List Bool) (c : Nat), bits.countP id = 1 →
      (bits.findIdx? id = some c ↔ bits.getD c false = true)
  | [], c, h => by simp at h
  | b :: bits, c, h => by
    cases b with
    | true =>
      -- the first entry is the selected one: nothing after it is selected
      have hnone : bits.countP id = 0 := by simpa using h
      cases c with
      | zero => simp [List.findIdx?_cons]
      | succ c =>
        have hfalse : bits.getD c false = false := by
          rcases Nat.lt_or_ge c bits.length with hc | hc
          · simpa [hc] using (List.countP_eq_zero.1 hnone) bits[c] (List.getElem_mem hc)
          · simp [hc]
        simpa [List.findIdx?_cons] using hfalse
    | false =>
      cases c with
      | zero => simp [List.findIdx?_cons]
      | succ c => simpa [List.findIdx?_cons] using findIdx?_of_countP_one bits c (by simpa using h)

/-- A mask selects exactly one component, `c`, when it selects one in all and `c` among them. -/
theorem single?_eq_some {m : Mask} {c : Nat} :
    m.single? = some c ↔ m.count = 1 ∧ m.get c = true := by
  unfold single?
  by_cases h : m.count = 1
  · simp only [h, if_true, true_and]
    exact findIdx?_of_countP_one m.bits c h
  · simp [h]

theorem single?_eq_none {m : Mask} : m.single? = none ↔ m.count ≠ 1 := by
  unfold single?
  by_cases h : m.count = 1
  · simp only [h, if_true, ne_eq, not_true_eq_false, iff_false]
    intro hn
    obtain ⟨i, hi, hget⟩ := List.countP_pos_iff.1 (by unfold count at h; omega : 0 < m.bits.countP id)
    obtain ⟨k, hk, rfl⟩ := List.getElem_of_mem hi
    exact absurd ((findIdx?_of_countP_one m.bits k h).2 (by simpa [hk] using hget)) (by simp [hn])
  · simp [h]

/-- The component a mask selecting exactly one is where the numbering puts it. -/
theorem firstSelected_of_single? {m : Mask} {c : Nat} (h : m.single? = some c) :
    m.firstSelected = c := by
  unfold single? at h
  split at h
  · simp [firstSelected, h]
  · cases h

theorem lt_size_of_single? {m : Mask} {c : Nat} (h : m.single? = some c) : c < m.size := by
  obtain ⟨-, hget⟩ := single?_eq_some.1 h
  by_contra hc
  have hlen : m.bits.length ≤ c := by
    simp only [size] at hc
    omega
  simp [get, List.getElem?_eq_none hlen] at hget

section Combining

variable {f : Bool → Bool → Bool} {a b m : Mask}

theorem get_zipWith {i : Nat} (hi : i < a.size) (h : a.size = b.size) :
    (⟨List.zipWith f a.bits b.bits⟩ : Mask).get i = f (a.get i) (b.get i) := by
  have hb : i < b.size := h ▸ hi
  simp [get, List.getD_eq_getElem?_getD, List.getElem?_zipWith,
    List.getElem?_eq_getElem (show i < a.bits.length from hi),
    List.getElem?_eq_getElem (show i < b.bits.length from hb)]

/-- **Combining masks.** Two masks combine into `m` exactly when they have one size, `m` has it
too, and every entry of `m` is `f` of theirs. -/
theorem combine_eq_ok :
    combine f a b = .ok m ↔
      a.size = b.size ∧ m.size = a.size ∧ ∀ i < a.size, m.get i = f (a.get i) (b.get i) := by
  unfold combine
  by_cases h : a.size = b.size
  · have hlen : a.bits.length = b.bits.length := h
    rw [if_neg (by simp [h]), Except.ok.injEq]
    constructor
    · rintro rfl
      exact ⟨h, by simp [size, hlen], fun i hi => get_zipWith hi h⟩
    · rintro ⟨-, hsize, hget⟩
      -- a mask is its list of entries: same length, same entry at every position
      obtain ⟨bits⟩ := m
      have hbits : bits.length = a.bits.length := hsize
      congr 1
      refine List.ext_getElem (by simp [hbits, hlen]) fun i hi hi' => ?_
      have hia : i < a.size := by rw [size, ← hbits]; exact hi'
      have hentry := (get_zipWith (f := f) hia h).trans (hget i hia).symm
      simpa [get, List.getD_eq_getElem?_getD, List.getElem?_eq_getElem hi,
        List.getElem?_eq_getElem hi'] using hentry
  · simp [h, abort]

/-- Masks of two sizes stop the combination, which names both sizes. -/
theorem combine_of_size_ne (h : a.size ≠ b.size) :
    combine f a b = abort (.maskSizes a.size b.size) := by
  simp [combine, h]

end Combining

/-- Reading entry `i` succeeds exactly inside the mask, with that entry. -/
theorem selected_eq_ok {what : Counted} {m : Mask} {i : Int} {v : Bool} :
    m.selected what i = .ok v ↔ 0 ≤ i ∧ i < m.size ∧ v = m.get i.toNat := by
  rw [selected, bind_eq_ok]
  constructor
  · rintro ⟨k, hk, hv⟩
    obtain ⟨h0, hlt, rfl⟩ := checkIndex_eq_ok.1 hk
    exact ⟨h0, hlt, (Except.ok.inj hv).symm⟩
  · rintro ⟨h0, hlt, rfl⟩
    exact ⟨i.toNat, checkIndex_eq_ok.2 ⟨h0, hlt, rfl⟩, rfl⟩

end Mask

/-- The component index of shape function `i` among `masks`: its single component `c` and the
number of shape functions before it that are primitive in `c`; `invalid` when not primitive. -/
def componentEntry (masks : List Mask) (i : Nat) : ComponentIndex :=
  match (masks.getD i default).single? with
  | some c => ⟨c, ((masks.take i).countP fun m => m.single? == some c : Nat)⟩
  | none => .invalid

/-- The entries of a list with one more mask at the end are those before, then the new one. -/
private theorem componentEntry_append (ms : List Mask) (m : Mask) {i : Nat} (hi : i < ms.length) :
    componentEntry (ms ++ [m]) i = componentEntry ms i := by
  simp [componentEntry, List.getD_eq_getElem?_getD, List.getElem?_append_left hi,
    List.take_append_of_le_length (Nat.le_of_lt hi)]

/-- The counters of the components `0 … n - 1`, the tally of `numberComponents` after `ms`. -/
private def tally (n : Nat) (ms : List Mask) : List Nat :=
  (List.range n).map fun c => ms.countP fun m => m.single? == some c

private theorem tally_set (n : Nat) (ms : List Mask) (m : Mask) {c : Nat} (hc : c < n)
    (hm : m.single? = some c) :
    (tally n ms).set c ((tally n ms).getD c 0 + 1) = tally n (ms ++ [m]) := by
  refine List.ext_getElem (by simp [tally]) fun k hk _ => ?_
  simp only [tally, List.length_set, List.length_map, List.length_range] at hk
  by_cases hkc : k = c
  · subst hkc
    simp [tally, hm, List.getD_eq_getElem?_getD, hc]
  · simp [tally, Ne.symm hkc, hm]

/-- **The component numbering.** With masks no larger than the number of components, entry `i`
of `numberComponents` is the component index `componentEntry masks i`. -/
theorem numberComponents_eq {n : Nat} {masks : List Mask} (hsize : ∀ m ∈ masks, m.size ≤ n) :
    numberComponents n masks = (List.range masks.length).map (componentEntry masks) := by
  -- the fold keeps, after a prefix `ms`, the tally of `ms` and the entries of `ms`
  suffices h : ∀ ms, (∀ m ∈ ms, m.size ≤ n) →
      ms.foldl (fun (acc : List Nat × List ComponentIndex) (m : Mask) =>
          if m.count != 1 then (acc.1, acc.2 ++ [.invalid])
          else (acc.1.set m.firstSelected.toNat (acc.1.getD m.firstSelected.toNat 0 + 1),
            acc.2 ++ [⟨m.firstSelected.toNat, acc.1.getD m.firstSelected.toNat 0⟩]))
        (List.replicate n 0, []) = (tally n ms, (List.range ms.length).map (componentEntry ms)) by
    simp only [numberComponents]
    rw [h masks hsize]
  intro ms
  induction ms using List.reverseRecOn with
  | nil => intro; simp [tally]
  | append_singleton ms m ih =>
    intro hs
    rw [List.foldl_append, ih fun x hx => hs x (List.mem_append_left _ hx), List.foldl_cons,
      List.foldl_nil, List.length_append, List.length_singleton, List.range_succ, List.map_append,
      List.map_singleton]
    have hprev : (List.range ms.length).map (componentEntry (ms ++ [m])) =
        (List.range ms.length).map (componentEntry ms) :=
      List.map_congr_left fun i hi => componentEntry_append ms m (List.mem_range.1 hi)
    rw [hprev]
    cases hm : m.single? with
    | none =>
      have hcount : m.count ≠ 1 := Mask.single?_eq_none.1 hm
      have htally : tally n (ms ++ [m]) = tally n ms := by simp [tally, hm]
      simp [hcount, htally, componentEntry, hm]
    | some c =>
      have hcount : m.count = 1 := (Mask.single?_eq_some.1 hm).1
      have hc : c < n := Nat.lt_of_lt_of_le (Mask.lt_size_of_single? hm) (hs m (by simp))
      have hfirst : m.firstSelected.toNat = c := by simp [Mask.firstSelected_of_single? hm]
      simp only [hcount, bne_self_eq_false, Bool.false_eq_true, if_false, hfirst,
        tally_set n ms m hc hm]
      simp [componentEntry, hm, tally, List.getD_eq_getElem?_getD, hc]

section Ranks

variable {masks : List Mask} {c : Nat}

/-- The `r`-th primitive shape function of component `c` exists when there are more than `r`. -/
theorem exists_single?_rank {r : Nat} (hr : r < masks.countP fun m => m.single? == some c) :
    ∃ i < masks.length, (masks.getD i default).single? = some c ∧
      (masks.take i).countP (fun m => m.single? == some c) = r := by
  induction masks generalizing r with
  | nil => simp at hr
  | cons m ms ih =>
    by_cases hm : m.single? = some c
    · cases r with
      | zero => exact ⟨0, by simp, by simpa using hm, by simp⟩
      | succ r =>
        obtain ⟨i, hi, hs, hrank⟩ := ih (r := r) (by simp [hm] at hr; omega)
        exact ⟨i + 1, by simpa using hi, by simpa using hs, by simp [hm, hrank]⟩
    · obtain ⟨i, hi, hs, hrank⟩ := ih (r := r) (by simpa [hm] using hr)
      exact ⟨i + 1, by simpa using hi, by simpa using hs, by simp [hm, hrank]⟩

/-- A component index names a shape function's single component and its rank in it. -/
theorem componentEntry_eq_mk {i r : Nat} :
    componentEntry masks i = ⟨c, r⟩ ↔ (masks.getD i default).single? = some c ∧
      (masks.take i).countP (fun m => m.single? == some c) = r := by
  unfold componentEntry
  cases h : (masks.getD i default).single? with
  | none => simp [ComponentIndex.invalid]
  | some c' =>
    simp only [ComponentIndex.mk.injEq, Int.natCast_inj, Option.some.injEq]
    constructor
    · rintro ⟨rfl, hr⟩
      exact ⟨rfl, hr⟩
    · rintro ⟨rfl, hr⟩
      exact ⟨rfl, hr⟩

theorem exists_componentEntry_eq {r : Nat}
    (hr : r < masks.countP fun m => m.single? == some c) :
    ∃ i < masks.length, componentEntry masks i = ⟨c, r⟩ := by
  obtain ⟨i, hi, hs, hrank⟩ := exists_single?_rank hr
  exact ⟨i, hi, componentEntry_eq_mk.2 ⟨hs, hrank⟩⟩

/-- The primitive shape functions of a component before one of them are fewer than before a
later one. -/
private theorem countP_take_lt {i i' : Nat} (hlt : i < i') (hi : i < masks.length)
    (hm : (masks.getD i default).single? = some c) :
    (masks.take i).countP (fun m => m.single? == some c) <
      (masks.take i').countP (fun m => m.single? == some c) := by
  have hm' : masks[i].single? = some c := by
    simpa [List.getD_eq_getElem?_getD, List.getElem?_eq_getElem hi] using hm
  have hstep : (masks.take (i + 1)).countP (fun m => m.single? == some c) =
      (masks.take i).countP (fun m => m.single? == some c) + 1 := by
    rw [List.take_add_one, List.getElem?_eq_getElem hi, Option.toList_some, List.countP_append,
      List.countP_singleton, if_pos (by simp [hm'])]
  have hmono : (masks.take (i + 1)).countP (fun m => m.single? == some c) ≤
      (masks.take i').countP (fun m => m.single? == some c) :=
    ((List.take_prefix_take_left (by omega)).sublist).countP_le
  omega

/-- Two shape functions with the same component index are the same. -/
theorem componentEntry_injective {i i' r : Nat} (hi : i < masks.length)
    (hi' : i' < masks.length) (h : componentEntry masks i = ⟨c, r⟩)
    (h' : componentEntry masks i' = ⟨c, r⟩) : i = i' := by
  obtain ⟨hs, hr⟩ := componentEntry_eq_mk.1 h
  obtain ⟨hs', hr'⟩ := componentEntry_eq_mk.1 h'
  rcases Nat.lt_trichotomy i i' with hlt | heq | hgt
  · have := countP_take_lt hlt hi hs
    omega
  · exact heq
  · have := countP_take_lt hgt hi' hs'
    omega

/-- A rank is below the number of primitive shape functions of its component. -/
theorem rank_lt_countP {i r : Nat} (hi : i < masks.length) (h : componentEntry masks i = ⟨c, r⟩) :
    r < masks.countP fun m => m.single? == some c := by
  obtain ⟨hs, hr⟩ := componentEntry_eq_mk.1 h
  have := countP_take_lt hi hi hs
  rw [List.take_length] at this
  omega

end Ranks

end FiniteElements.Element
