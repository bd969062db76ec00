import FiniteElements.Proofs.Composite.ShapeFunctions
import FiniteElements.Proofs.Composite.Constraints
import FiniteElements.Proofs.Family.Names

/-!
# Block masks of component masks

The components of an element fall into blocks: all of them into one block for an element that is
not a composite, and for a composite one block for each copy of each base, at the component
offset the composite gave that block (`Element.blockRanges`). A component mask becomes a mask
over the blocks by a walk through its components in order, keeping a value and a seen mark for
each block: a component whose block was seen with the other value stops the walk.

After `k` components the walk is in a state that says, for each block, whether one of its
components so far is selected and whether one was seen (`Element.blockState`), and a step from
that state fails exactly when the component clashes with what its block holds
(`Element.blockMaskStep_blockState`). No component clashes exactly when the mask agrees on every
block, and the first clash lies in a block the mask splits. So on every constructed element a
mask of the wrong size is refused for its size, a mask that splits a block is refused with a block
it splits, and every other mask gives the mask over the blocks that holds each block's common
value (`Element.blockMaskFromComponentMask_blocks`).

## Main definitions

* `Element.Constructed`: the elements the library builds.
* `Element.blockRanges`, `Mask.Splits`
* `Element.blockState`, `Element.clashes`

## Main results

* `Element.blockMaskStep_blockState`, `Element.foldlM_blockMaskStep_labelsOf`
* `Element.Constructed.blockLayout`
* `Element.blockMaskFromComponentMask_blocks`
-/

namespace FiniteElements.Element

set_option autoImplicit false

open FiniteElements.Cell

section Loop

variable {β ε : Type} (f : β → Nat → Except ε β) (T : Nat → β) {bad : Nat → Bool} {err : Nat → ε}
  {n : Nat} (hstep : ∀ k < n, f (T k) k = if bad k then .error (err k) else .ok (T (k + 1)))
include hstep

/-- A loop over the positions below `n`, whose round `k` from the `k`-th state fails when `k` is
bad and goes on to the next state otherwise, ends in the `n`-th state when no round is bad. -/
theorem foldlM_range_eq_ok (hgood : ∀ k < n, bad k = false) :
    (List.range n).foldlM f (T 0) = .ok (T n) := by
  induction n with
  | zero => rfl
  | succ n ih =>
    rw [List.range_succ, List.foldlM_append,
      ih (fun k hk => hstep k (by omega)) (fun k hk => hgood k (by omega))]
    simp [hstep n (by omega), hgood n (by omega), bind, Except.bind, pure, Except.pure]

/-- Such a loop fails at its first bad round. -/
theorem foldlM_range_eq_error {k : Nat} (hk : k < n) (hbad : bad k = true)
    (hfirst : ∀ j < k, bad j = false) :
    (List.range n).foldlM f (T 0) = .error (err k) := by
  obtain ⟨m, rfl⟩ : ∃ m, n = k + 1 + m := ⟨n - k - 1, by omega⟩
  rw [List.range_add, List.range_succ, List.foldlM_append, List.foldlM_append,
    foldlM_range_eq_ok f T (fun j hj => hstep j (by omega)) hfirst]
  simp [hstep k hk, hbad, bind, Except.bind]

end Loop

section Labels

/-- The block of each component when `nb` blocks come in order, block `b` with `n b`
components. -/
def labelsOf (n : Nat → Nat) (nb : Nat) : List Nat :=
  (List.range nb).flatMap fun b => List.replicate (n b) b

variable {n : Nat → Nat} {nb : Nat}

theorem length_labelsOf : (labelsOf n nb).length = groupStart n nb := by
  simp [labelsOf, List.length_flatMap, groupStart]

theorem getD_labelsOf {b i : Nat} (hb : b < nb) (hi : i < n b) :
    (labelsOf n nb).getD (groupStart n b + i) 0 = b := by
  rw [List.getD_eq_getElem?_getD, labelsOf, groupStart,
    getElem?_flatMap_range_of_length (n := n) (fun _ => List.length_replicate) hb hi]
  simp [hi]

/-- A component is in block `b` exactly when it is one of block `b`'s. -/
theorem getD_labelsOf_eq_iff {c b : Nat} (hc : c < groupStart n nb) :
    (labelsOf n nb).getD c 0 = b ↔ b < nb ∧ ∃ i < n b, c = groupStart n b + i := by
  obtain ⟨β, hβ, r, hr, rfl⟩ := exists_eq_groupStart_add hc
  rw [getD_labelsOf hβ hr]
  constructor
  · rintro rfl
    exact ⟨hβ, r, hr, rfl⟩
  · rintro ⟨-, i, hi, h⟩
    exact (eq_of_sum_range_add hr hi h).1

end Labels

/-- A mask splits the components `[o, o + n)` when it selects some of them and not others. -/
def Mask.Splits (cm : Mask) (r : Nat × Nat) : Prop :=
  ∃ i < r.2, ∃ j < r.2, cm.get (r.1 + i) ≠ cm.get (r.1 + j)

section Walk

variable (cm : Mask) (blockOf : List Nat)

/-- The state of the walk after the first `k` components, for `nb` blocks: for each block,
whether one of its components so far is selected, and whether one was seen. -/
def blockState (nb k : Nat) : List Bool × List Bool :=
  ((List.range nb).map fun b => decide (∃ c < k, blockOf.getD c 0 = b ∧ cm.get c = true),
    (List.range nb).map fun b => decide (∃ c < k, blockOf.getD c 0 = b))

/-- Component `k` clashes with its block: the block was seen, and whether it holds a selected
component differs from whether `k` is selected. -/
def clashes (k : Nat) : Bool :=
  decide (∃ c < k, blockOf.getD c 0 = blockOf.getD k 0) &&
    decide (∃ c < k, blockOf.getD c 0 = blockOf.getD k 0 ∧ cm.get c = true) != cm.get k

variable {cm blockOf}

theorem blockState_zero (nb : Nat) :
    blockState cm blockOf nb 0 = (List.replicate nb false, List.replicate nb false) := by
  simp [blockState, List.map_const']

theorem decide_exists_lt_succ {p : Nat → Prop} [DecidablePred p] (k : Nat) :
    decide (∃ c < k + 1, p c) = (decide (∃ c < k, p c) || decide (p k)) := by
  rw [Bool.eq_iff_iff]
  simp only [Bool.or_eq_true, decide_eq_true_eq]
  exact Nat.exists_lt_succ_right

/-- A step of the walk at a component in range: it fails when the component's block was seen
with the other value, and otherwise sets the block's value and marks it seen. -/
theorem blockMaskStep_eq {k : Nat} (hk : k < blockOf.length) (acc : List Bool × List Bool)
    (sel : Bool) :
    blockMaskStep cm blockOf acc (sel, k) =
      if (acc.2.getD (blockOf.getD k 0) false && acc.1.getD (blockOf.getD k 0) false != sel)
      then report (.partialBlock cm (blockOf.getD k 0))
      else .ok (acc.1.set (blockOf.getD k 0) sel, acc.2.set (blockOf.getD k 0) true) := by
  simp only [blockMaskStep, liftFault_checkedIndex hk 0, bind, Except.bind]
  split <;> simp [report, pure, Except.pure]

/-- **One step of the walk.** From the state after `k` components, component `k` fails the walk,
naming its block, exactly when it clashes with its block, and otherwise moves the walk to the
state after `k + 1` components. -/
theorem blockMaskStep_blockState {nb k : Nat} (hk : k < blockOf.length)
    (hb : blockOf.getD k 0 < nb) :
    blockMaskStep cm blockOf (blockState cm blockOf nb k) (cm.get k, k) =
      if clashes cm blockOf k then report (.partialBlock cm (blockOf.getD k 0))
      else .ok (blockState cm blockOf nb (k + 1)) := by
  have hcond : ((blockState cm blockOf nb k).2.getD (blockOf.getD k 0) false &&
      (blockState cm blockOf nb k).1.getD (blockOf.getD k 0) false != cm.get k) =
      clashes cm blockOf k := by
    simp only [blockState, getD_map_range hb, clashes]
  rw [blockMaskStep_eq hk, hcond]
  by_cases hc : clashes cm blockOf k = true
  · rw [if_pos hc, if_pos hc]
  · rw [if_neg hc, if_neg hc]
    simp only [clashes, Bool.not_eq_true] at hc
    simp only [blockState, Except.ok.injEq, Prod.mk.injEq, Constraint.set_map_range]
    -- block `b` now holds component `k`; the other blocks keep what they held
    constructor <;> refine List.map_congr_left fun b _ => ?_
    · by_cases hb' : b = blockOf.getD k 0
      · subst hb'
        rw [if_pos rfl, decide_exists_lt_succ]
        by_cases hseen : ∃ c < k, blockOf.getD c 0 = blockOf.getD k 0
        · -- the block was seen before, with the value of `k`
          rw [decide_eq_true hseen, Bool.true_and, bne_eq_false_iff_eq] at hc
          rw [hc]
          cases cm.get k <;> simp
        · -- the block is seen first at `k`
          have hnone : ¬∃ c < k, blockOf.getD c 0 = blockOf.getD k 0 ∧ cm.get c = true :=
            fun ⟨c, hck, hcb, _⟩ => hseen ⟨c, hck, hcb⟩
          rw [decide_eq_false hnone, Bool.false_or]
          cases cm.get k <;> simp
      · have hother : ¬(blockOf.getD k 0 = b ∧ cm.get k = true) := fun h => hb' h.1.symm
        rw [if_neg hb', decide_exists_lt_succ, decide_eq_false hother, Bool.or_false]
    · by_cases hb' : b = blockOf.getD k 0
      · rw [if_pos hb', decide_exists_lt_succ, decide_eq_true hb'.symm, Bool.or_true]
      · have hother : blockOf.getD k 0 ≠ b := fun h => hb' h.symm
        rw [if_neg hb', decide_exists_lt_succ, decide_eq_false hother, Bool.or_false]

/-- A clash is a component of the same block, before it, with the other value. -/
theorem exists_of_clashes {k : Nat} (h : clashes cm blockOf k = true) :
    ∃ c < k, blockOf.getD c 0 = blockOf.getD k 0 ∧ cm.get c ≠ cm.get k := by
  simp only [clashes, Bool.and_eq_true, decide_eq_true_eq, bne_iff_ne, ne_eq] at h
  obtain ⟨⟨c, hc, hcb⟩, hval⟩ := h
  cases hk : cm.get k
  · -- `k` is not selected, so some component of its block before it is
    rw [hk] at hval
    simp only [Bool.not_eq_false, decide_eq_true_eq] at hval
    obtain ⟨c', hc', hcb', hsel⟩ := hval
    exact ⟨c', hc', hcb', by simp [hsel]⟩
  · -- `k` is selected, so no component of its block before it is
    rw [hk] at hval
    simp only [decide_eq_true_eq, not_exists, not_and] at hval
    exact ⟨c, hc, hcb, by simp [hval c hc hcb]⟩

/-- Before the first clash, the mask agrees on the components of every block. By induction on
the components walked: a component that does not clash takes the value its block holds. -/
theorem agrees_of_not_clashes {k : Nat} (h : ∀ j < k, clashes cm blockOf j = false) :
    ∀ c < k, ∀ c' < k, blockOf.getD c 0 = blockOf.getD c' 0 → cm.get c = cm.get c' := by
  induction k with
  | zero => intro c hc; omega
  | succ k ih =>
    have ih := ih fun j hj => h j (by omega)
    -- component `k` against the components before it
    have hk : ∀ c < k, blockOf.getD c 0 = blockOf.getD k 0 → cm.get c = cm.get k := by
      intro c hc hcb
      have hnot := h k (by omega)
      simp only [clashes, Bool.and_eq_false_iff, decide_eq_false_iff_not, not_exists, not_and,
        bne_eq_false_iff_eq] at hnot
      rcases hnot with hnone | hval
      · exact absurd hcb (hnone c hc)
      · cases hsel : cm.get k
        · rw [hsel] at hval
          simp only [decide_eq_false_iff_not, not_exists, not_and] at hval
          cases hc' : cm.get c
          · rfl
          · exact absurd hc' (hval c hc hcb)
        · rw [hsel] at hval
          simp only [decide_eq_true_eq] at hval
          obtain ⟨c', hc', hcb', hsel'⟩ := hval
          rw [ih c hc c' hc' (hcb.trans hcb'.symm), hsel']
    intro c hc c' hc' hcc'
    rcases Nat.lt_succ_iff_lt_or_eq.1 hc with hc | rfl <;>
      rcases Nat.lt_succ_iff_lt_or_eq.1 hc' with hc' | rfl
    · exact ih c hc c' hc' hcc'
    · exact hk c hc hcc'
    · exact (hk c' hc' hcc'.symm).symm
    · rfl

end Walk


section Labelled

variable {cm : Mask} {n : Nat → Nat} {nb : Nat}

/-- Walking a mask with its positions is walking its positions. -/
theorem zipIdx_bits (cm : Mask) :
    cm.bits.zipIdx = (List.range cm.size).map fun c => (cm.get c, c) := by
  refine List.ext_getElem (by simp [Mask.size]) fun i h₁ h₂ => ?_
  have hi : i < cm.bits.length := by simpa using h₁
  simp [List.getElem_zipIdx, Mask.get, List.getD_eq_getElem?_getD, List.getElem?_eq_getElem hi]

/-- A block of the labels lies within the components. -/
theorem groupStart_add_le {b : Nat} (hb : b < nb) : groupStart n b + n b ≤ groupStart n nb :=
  sum_range_add_le hb

theorem getD_labelsOf_lt {c : Nat} (hc : c < groupStart n nb) : (labelsOf n nb).getD c 0 < nb :=
  ((getD_labelsOf_eq_iff hc).1 rfl).1

/-- A mask agrees on the components of each block exactly when it splits no block. -/
theorem agrees_iff_not_splits (hsize : cm.size = groupStart n nb) :
    (∀ c < cm.size, ∀ c' < cm.size, (labelsOf n nb).getD c 0 = (labelsOf n nb).getD c' 0 →
      cm.get c = cm.get c') ↔ ∀ b < nb, ¬cm.Splits (groupStart n b, n b) := by
  constructor
  · rintro hagree b hb ⟨i, hi, j, hj, hne⟩
    have hle := groupStart_add_le (n := n) hb
    exact hne (hagree _ (by omega) _ (by omega)
      (by rw [getD_labelsOf hb hi, getD_labelsOf hb hj]))
  · intro hsplit c hc c' hc' hcc'
    obtain ⟨hb, i, hi, hci⟩ := (getD_labelsOf_eq_iff (hsize ▸ hc)).1 rfl
    obtain ⟨-, j, hj, hcj⟩ := (getD_labelsOf_eq_iff (hsize ▸ hc')).1 hcc'.symm
    by_contra hne
    exact hsplit _ hb ⟨i, hi, j, hj, by rw [← hci, ← hcj]; exact hne⟩

/-- On a mask that agrees on every block, a block holds a selected component exactly when its
first component is selected. -/
theorem decide_selected_eq (hsize : cm.size = groupStart n nb) (hpos : ∀ b < nb, 0 < n b)
    (hsplit : ∀ b < nb, ¬cm.Splits (groupStart n b, n b)) {b : Nat} (hb : b < nb) :
    decide (∃ c < cm.size, (labelsOf n nb).getD c 0 = b ∧ cm.get c = true) =
      cm.get (groupStart n b) := by
  have hle := groupStart_add_le (n := n) hb
  have hpb := hpos b hb
  have hfirst : (labelsOf n nb).getD (groupStart n b + 0) 0 = b := getD_labelsOf hb hpb
  rw [Nat.add_zero] at hfirst
  have hagree := (agrees_iff_not_splits hsize).2 hsplit
  cases hsel : cm.get (groupStart n b)
  · -- no component of the block is selected, since the first is not
    refine decide_eq_false fun ⟨c, hc, hcb, hc'⟩ => ?_
    rw [hagree c hc _ (by omega) (hcb.trans hfirst.symm), hsel] at hc'
    exact Bool.false_ne_true hc'
  · exact decide_eq_true ⟨_, by omega, hfirst, hsel⟩

/-- **The walk over components labelled block by block.** With as many components as the blocks
hold, none of them empty: if the mask splits a block, the walk fails with a block it splits; if
it splits none, the walk ends with each block holding the value of its first component. -/
theorem foldlM_blockMaskStep_labelsOf (hsize : cm.size = groupStart n nb)
    (hpos : ∀ b < nb, 0 < n b) :
    ((∃ b < nb, cm.Splits (groupStart n b, n b)) →
      ∃ b < nb, cm.Splits (groupStart n b, n b) ∧
        cm.bits.zipIdx.foldlM (blockMaskStep cm (labelsOf n nb))
          (List.replicate nb false, List.replicate nb false) = report (.partialBlock cm b)) ∧
    ((∀ b < nb, ¬cm.Splits (groupStart n b, n b)) →
      ∃ seen, cm.bits.zipIdx.foldlM (blockMaskStep cm (labelsOf n nb))
          (List.replicate nb false, List.replicate nb false) =
        .ok ((List.range nb).map fun b => cm.get (groupStart n b), seen)) := by
  have hstep : ∀ k < cm.size, blockMaskStep cm (labelsOf n nb)
      (blockState cm (labelsOf n nb) nb k) (cm.get k, k) =
        if clashes cm (labelsOf n nb) k then .error (.reported (.partialBlock cm
          ((labelsOf n nb).getD k 0)))
        else .ok (blockState cm (labelsOf n nb) nb (k + 1)) := fun k hk =>
    blockMaskStep_blockState (by rw [length_labelsOf]; omega) (getD_labelsOf_lt (by omega))
  rw [← blockState_zero nb, zipIdx_bits, List.foldlM_map]
  constructor
  · rintro ⟨b, hb, hsplit⟩
    -- some component clashes, since the mask does not agree on block `b`
    have hclash : ∃ k, k < cm.size ∧ clashes cm (labelsOf n nb) k = true := by
      by_contra hnone
      simp only [not_exists, not_and, Bool.not_eq_true] at hnone
      exact (agrees_iff_not_splits hsize).1 (agrees_of_not_clashes hnone) b hb hsplit
    -- the first clash fails the walk, in a block the mask splits
    obtain ⟨hk, hfirst⟩ := Nat.find_spec hclash
    set k := Nat.find hclash
    have hmin : ∀ j < k, clashes cm (labelsOf n nb) j = false := fun j hj =>
      Bool.eq_false_iff.2 fun h => Nat.find_min hclash hj ⟨by omega, h⟩
    obtain ⟨c, hck, hcb, hne⟩ := exists_of_clashes hfirst
    obtain ⟨hb', j, hj, hkj⟩ := (getD_labelsOf_eq_iff (hsize ▸ hk)).1 rfl
    obtain ⟨-, i, hi, hci⟩ := (getD_labelsOf_eq_iff (hsize ▸ (show c < cm.size by omega))).1 hcb
    refine ⟨_, hb', ⟨i, hi, j, hj, by rw [← hci, ← hkj]; exact hne⟩, ?_⟩
    exact foldlM_range_eq_error (fun acc c => blockMaskStep cm (labelsOf n nb) acc (cm.get c, c))
      (blockState cm (labelsOf n nb) nb) hstep hk hfirst hmin
  · intro hsplit
    have hagree := (agrees_iff_not_splits hsize).2 hsplit
    have hgood : ∀ k < cm.size, clashes cm (labelsOf n nb) k = false := fun k hk =>
      Bool.eq_false_iff.2 fun h => by
        obtain ⟨c, hck, hcb, hne⟩ := exists_of_clashes h
        exact hne (hagree c (by omega) k hk hcb)
    refine ⟨(blockState cm (labelsOf n nb) nb cm.size).2,
      (foldlM_range_eq_ok (fun acc c => blockMaskStep cm (labelsOf n nb) acc (cm.get c, c))
        (blockState cm (labelsOf n nb) nb) hstep hgood).trans ?_⟩
    simp only [blockState, Except.ok.injEq, Prod.mk.injEq, and_true]
    exact List.map_congr_left fun b hb =>
      decide_selected_eq hsize hpos hsplit (List.mem_range.1 hb)

end Labelled

section Elements

/-- The elements the library builds: a plain element from its definition, a member of a family
from the family's definition, and a system of built elements. -/
inductive Constructed : Element → Prop
  | basic {d : Definition} {s : Store} (h : Store.ofDefinition d = .ok s) : Constructed (.basic s)
  | member (family : Family) {d : Definition} {s : Store} (h : Store.ofDefinition d = .ok s) :
      Constructed (.member family s)
  | system {p : Packing} {bases : List (Option Element × Int)} {e : Element}
      (hbases : ∀ x ∈ bases, ∀ b ∈ x.1, Constructed b) (h : compose p bases = .ok e) :
      Constructed e

/-- A plain element made from its definition is built. -/
theorem ofDefinition_constructed {d : Definition} {e : Element} (h : ofDefinition d = .ok e) :
    e.Constructed := by
  unfold ofDefinition at h
  rw [bind_eq_ok] at h
  obtain ⟨s, hs, h⟩ := h
  cases h
  exact .basic hs

/-- A store assembled from a checked definition has a component. -/
theorem one_le_components_of_assemble {d : Definition} {c c' : Hypercube} {t : IndexTables}
    {fm : Option (List (List Nat))} {s : Store} (h : Store.assemble d c t fm = .ok s)
    (hc : d.check = .ok c') : 1 ≤ s.components := by
  obtain ⟨-, -, -, -, -, -, -, -, rfl⟩ := Store.assemble_eq_ok h
  exact (Definition.check_eq_ok.1 hc).2.2.2.1

/-- Every built element has a component: its store was assembled from a checked definition. -/
theorem Constructed.one_le_components {e : Element} (h : e.Constructed) :
    1 ≤ e.store.components := by
  cases h with
  | basic h =>
    obtain ⟨c, t, hc, -, ha⟩ := Store.ofDefinition_eq_ok h
    exact one_le_components_of_assemble ha hc
  | member _ h =>
    obtain ⟨c, t, hc, -, ha⟩ := Store.ofDefinition_eq_ok h
    exact one_le_components_of_assemble ha hc
  | system _ h =>
    unfold compose at h
    rw [bind_eq_ok] at h
    obtain ⟨s, hs, h⟩ := h
    cases h
    obtain ⟨r⟩ := Store.composite_eq_ok hs
    obtain ⟨c, hc⟩ := r.definition_check
    exact one_le_components_of_assemble r.assemble_eq hc

/-- Bases given as elements that check as the composite's bases are those bases, in order. -/
theorem zip_of_asSpecs {specs : List (Option Element × Int)} :
    ∀ {bases : List (Store × Nat)}, specs.map (fun q => (q.1.map store, q.2)) = asSpecs bases →
      ((specs.filterMap (·.1)).map store).zip (specs.map (·.2.toNat)) = bases ∧
        (specs.filterMap (·.1)).length = specs.length := by
  induction specs with
  | nil =>
    intro bases h
    cases bases with
    | nil => exact ⟨rfl, rfl⟩
    | cons x bases => simp [asSpecs] at h
  | cons q specs ih =>
    intro bases h
    cases bases with
    | nil => simp [asSpecs] at h
    | cons x bases =>
      rw [List.map_cons, asSpecs, List.map_cons, List.cons.injEq] at h
      obtain ⟨hq, h⟩ := h
      obtain ⟨hzip, hlen⟩ := ih h
      obtain ⟨q1, q2⟩ := q
      obtain ⟨h1, h2⟩ := Prod.mk.injEq _ _ _ _ ▸ hq
      obtain ⟨b, rfl, hbx⟩ := Option.map_eq_some_iff.1 h1
      subst h2
      refine ⟨?_, by simp [hlen]⟩
      simp [hzip, hbx]

/-- **A composite element and its run.** A composite built from elements holds those elements
and their multiplicities, and the run of its store checked them as its bases. -/
theorem compose_eq_ok {p : Packing} {specs : List (Option Element × Int)} {e : Element}
    (h : compose p specs = .ok e) :
    ∃ s bases ms, e = .composite s p bases ms ∧ bases.length = ms.length ∧
      (∀ b ∈ bases, ∃ x ∈ specs, b ∈ x.1) ∧
      ∃ r : CompositeRun p (specs.map fun q => (q.1.map store, q.2)) s,
        r.bases = (bases.map store).zip ms := by
  unfold compose at h
  rw [bind_eq_ok] at h
  obtain ⟨s, hs, h⟩ := h
  cases h
  obtain ⟨r⟩ := Store.composite_eq_ok hs
  obtain ⟨hzip, hlen⟩ := zip_of_asSpecs (checkBases_eq_ok r.checkBases_eq).1
  refine ⟨s, _, _, rfl, by simpa using hlen, fun b hb => ?_, r, hzip.symm⟩
  obtain ⟨x, hx, hbx⟩ := List.mem_filterMap.1 hb
  exact ⟨x, hx, hbx⟩

/-- The components of each block of an element, as its first component and its number of
components: one block of all components for an element that is not a composite, and for a
composite one block for each copy of each base, at the component offset the composite gave it. -/
def blockRanges : Element → List (Nat × Nat)
  | .composite _ _ bases ms =>
    (blocksOf ((bases.map store).zip ms)).map fun blk => (blk.compOffset, blk.store.components.toNat)
  | e => [(0, e.store.components.toNat)]

/-- The blocks of an element: `nb` of them in order, block `b` of `n b` components, none empty. -/
structure BlockLayout (e : Element) (n : Nat → Nat) (nb : Nat) : Prop where
  componentBlocks_eq : e.componentBlocks = labelsOf n nb
  nBlocks_eq : e.nBlocks = nb
  blockRanges_eq : e.blockRanges = (List.range nb).map fun b => (groupStart n b, n b)
  components_eq : e.store.components = groupStart n nb
  pos : ∀ b < nb, 0 < n b

/-- An element that is not a composite is one block of all its components. -/
theorem BlockLayout.single {e : Element}
    (hblocks : e.componentBlocks = List.replicate e.store.components.toNat 0)
    (hn : e.nBlocks = 1) (hr : e.blockRanges = [(0, e.store.components.toNat)])
    (hpos : 1 ≤ e.store.components) :
    e.BlockLayout (fun _ => e.store.components.toNat) 1 where
  componentBlocks_eq := by simp [hblocks, labelsOf]
  nBlocks_eq := hn
  blockRanges_eq := by simp [hr, groupStart]
  components_eq := by simp [groupStart]; omega
  pos _ _ := by omega

/-- A composite of built elements has one block for each copy of each base, at the component
offsets its run gave them. -/
theorem BlockLayout.composite {s : Store} {p : Packing} {bases : List Element} {ms : List Nat}
    {specs : List (Option Store × Int)} (r : CompositeRun p specs s)
    (hbases : r.bases = (bases.map store).zip ms) (hlen : bases.length = ms.length)
    (hpos : ∀ b ∈ bases, 1 ≤ b.store.components) :
    (Element.composite s p bases ms).BlockLayout
      (fun β => ((blocksOf r.bases).getD β default).store.components.toNat)
      (blocksOf r.bases).length := by
  have hsizes : ((bases.zip ms).flatMap fun x => List.replicate x.2 x.1.store.components.toNat) =
      (blocksOf r.bases).map fun blk => blk.store.components.toNat := by
    rw [map_store_blocksOf r.bases fun s => s.components.toNat, hbases, List.zip_map_left,
      List.flatMap_map]
    rfl
  have hcomp : ∀ blk ∈ blocksOf r.bases, 1 ≤ blk.store.components := by
    intro blk hblk
    obtain ⟨β, hβ, rfl⟩ := List.getElem_of_mem hblk
    obtain ⟨x, hx, hxs⟩ := store_getD_blocksOf hβ
    rw [hbases] at hx
    obtain ⟨b, hb, hbx⟩ := List.mem_map.1 (List.of_mem_zip hx).1
    rw [← List.getD_eq_getElem _ default hβ, hxs, ← hbx]
    exact hpos b hb
  refine ⟨?_, ?_, ?_, ?_, fun β hβ => ?_⟩
  · -- the labels of the components, block by block
    simp only [componentBlocks]
    rw [hsizes, zipIdx_flatMap, List.length_map]
    refine List.flatMap_congr fun β hβ => ?_
    rw [List.getD_eq_getElem?_getD, List.getElem?_map,
      List.getElem?_eq_getElem (List.mem_range.1 hβ)]
    simp [List.getD_eq_getElem?_getD, List.getElem?_eq_getElem (List.mem_range.1 hβ)]
  · -- a block for each copy of each base
    have hms : ((bases.map store).zip ms).map Prod.snd = ms :=
      List.map_snd_zip (by simp [hlen])
    simp only [nBlocks]
    rw [length_blocksOf, blockKeys, List.length_flatMap]
    simp only [List.length_map, List.length_range]
    rw [map_range_getD r.bases fun x => x.2, hbases, hms, List.sum_eq_foldr]
  · -- each block starts at its component offset
    simp only [blockRanges]
    rw [← hbases, ← map_range_getD (blocksOf r.bases)]
    refine List.map_congr_left fun β hβ => ?_
    rw [compOffset_getD_blocksOf (List.mem_range.1 hβ)]
    rfl
  · change s.components = _
    rw [r.components_store, summedComponents, groupStart,
      map_range_getD (blocksOf r.bases) fun blk => blk.store.components.toNat,
      natCast_sum_toNat _ fun blk hblk => Int.le_of_lt (hcomp blk hblk)]
  · have := hcomp _ (getD_mem_of_lt default hβ)
    omega

/-- **The blocks of a built element.** -/
theorem Constructed.blockLayout {e : Element} (h : e.Constructed) :
    ∃ n nb, e.BlockLayout n nb := by
  have hpos := h.one_le_components
  cases h with
  | basic _ => exact ⟨_, _, .single rfl rfl rfl hpos⟩
  | member _ _ => exact ⟨_, _, .single rfl rfl rfl hpos⟩
  | system hbases h =>
    obtain ⟨s, bases, ms, rfl, hlen, hmem, r, hr⟩ := compose_eq_ok h
    refine ⟨_, _, .composite r hr hlen fun b hb => ?_⟩
    obtain ⟨x, hx, hbx⟩ := hmem b hb
    exact (hbases x hx b hbx).one_le_components

/-- **A component mask over the blocks of a built element.** A mask whose size is not the
element's number of components is refused for its size. A mask of the right size that selects
part of a block is refused, with a block it splits. Any other mask gives the mask over the blocks,
one entry for each block (one for an element that is not a composite, one for each copy of each
base of a composite) holding the value the mask takes on all of the block's components. -/
theorem blockMaskFromComponentMask_blocks {e : Element} (he : e.Constructed) (cm : Mask) :
    e.blockRanges.length = e.nBlocks ∧
    ((cm.size : Int) ≠ e.store.components →
      e.blockMaskFromComponentMask cm =
        report (.componentMaskSize cm.size e.name e.store.components)) ∧
    ((cm.size : Int) = e.store.components → (∃ r ∈ e.blockRanges, cm.Splits r) →
      ∃ b, cm.Splits (e.blockRanges.getD b default) ∧
        e.blockMaskFromComponentMask cm = report (.partialBlock cm b)) ∧
    ((cm.size : Int) = e.store.components → (∀ r ∈ e.blockRanges, ¬cm.Splits r) →
      e.blockMaskFromComponentMask cm = .ok ⟨e.blockRanges.map fun r => cm.get r.1⟩) := by
  obtain ⟨n, nb, hl⟩ := he.blockLayout
  have hsize (h : (cm.size : Int) = e.store.components) : cm.size = groupStart n nb := by
    rw [hl.components_eq] at h
    exact_mod_cast h
  refine ⟨by rw [hl.blockRanges_eq, hl.nBlocks_eq, List.length_map, List.length_range],
    fun hne => ?_, fun heq hsplit => ?_, fun heq hnone => ?_⟩
  · simp [blockMaskFromComponentMask, hne, name, report, bind, Except.bind]
  · rw [hl.blockRanges_eq] at hsplit ⊢
    obtain ⟨r, hr, hrs⟩ := hsplit
    obtain ⟨b, hb, rfl⟩ := List.mem_map.1 hr
    obtain ⟨b', hb', hs', hfold⟩ :=
      (foldlM_blockMaskStep_labelsOf (hsize heq) hl.pos).1 ⟨b, List.mem_range.1 hb, hrs⟩
    refine ⟨b', by rwa [getD_map_range hb'], ?_⟩
    simp [blockMaskFromComponentMask, heq, hl.componentBlocks_eq, hl.nBlocks_eq, hfold, report,
      bind, Except.bind]
  · rw [hl.blockRanges_eq] at hnone ⊢
    have hnone' : ∀ b < nb, ¬cm.Splits (groupStart n b, n b) := fun b hb =>
      hnone _ (List.mem_map_of_mem (List.mem_range.2 hb))
    obtain ⟨seen, hfold⟩ := (foldlM_blockMaskStep_labelsOf (hsize heq) hl.pos).2 hnone'
    simp [blockMaskFromComponentMask, heq, hl.componentBlocks_eq, hl.nBlocks_eq, hfold, bind,
      Except.bind, pure, Except.pure]

end Elements

end FiniteElements.Element

namespace FiniteElements.Family

set_option autoImplicit false

open FiniteElements.Element

theorem continuous_constructed {dim degree : Int} {e : Element}
    (h : continuous dim degree = .ok e) : e.Constructed := by
  obtain ⟨d, s, hs, rfl, -⟩ := continuous_eq_member h
  exact .member _ hs

theorem discontinuous_constructed {dim degree : Int} {e : Element}
    (h : discontinuous dim degree = .ok e) : e.Constructed := by
  obtain ⟨d, s, hs, rfl, -⟩ := discontinuous_eq_member h
  exact .member _ hs

theorem raviartThomas_constructed {dim degree : Int} {e : Element}
    (h : raviartThomas dim degree = .ok e) : e.Constructed := by
  obtain ⟨d, s, hs, rfl, -⟩ := raviartThomas_eq_member h
  exact .member _ hs

/-- **Every family member is built.** -/
theorem member_constructed {family : String} {dim degree : Int} {e : Element}
    (h : member family dim degree = .ok e) : e.Constructed := by
  unfold member at h
  split_ifs at h
  · exact continuous_constructed h
  · exact discontinuous_constructed h
  · exact raviartThomas_constructed h

/-- The linear continuous element on the segment. -/
def segmentLinear : Element := okValue (continuous 1 1)

/-- Two copies of the linear element on the segment, blocked: a vector element. -/
def segmentVector : Element := okValue (compose .blocked [(some segmentLinear, 2)])

/-- The vector element beside the linear element, blocked: three components in two blocks. -/
def segmentVectorAndScalar : Element :=
  okValue (compose .blocked [(some segmentVector, 1), (some segmentLinear, 1)])

theorem segmentVectorAndScalar_constructed : segmentVectorAndScalar.Constructed := by
  have hlinear : segmentLinear.Constructed := continuous_constructed (eq_ok_okValue (by decide))
  have hvector : segmentVector.Constructed := by
    refine .system (fun x hx b hb => ?_) (eq_ok_okValue (by decide))
    simp only [List.mem_singleton] at hx
    subst hx
    simp only [Option.mem_def, Option.some.injEq] at hb
    exact hb ▸ hlinear
  refine .system (fun x hx b hb => ?_) (eq_ok_okValue (by decide))
  simp only [List.mem_cons, List.not_mem_nil, or_false] at hx
  rcases hx with rfl | rfl <;> simp only [Option.mem_def, Option.some.injEq] at hb <;> subst hb
  · exact hvector
  · exact hlinear

/-- The blocks of the vector element beside the scalar one, and a mask that splits the vector
block. -/
theorem segmentVectorAndScalar_blocks :
    segmentVectorAndScalar.Constructed ∧
      segmentVectorAndScalar.blockRanges.length = segmentVectorAndScalar.nBlocks ∧
      (((⟨[true, false, true]⟩ : Mask).size : Int) ≠ segmentVectorAndScalar.store.components →
        segmentVectorAndScalar.blockMaskFromComponentMask ⟨[true, false, true]⟩ =
          report (.componentMaskSize 3 segmentVectorAndScalar.name
            segmentVectorAndScalar.store.components)) ∧
      (((⟨[true, false, true]⟩ : Mask).size : Int) = segmentVectorAndScalar.store.components →
        (∃ r ∈ segmentVectorAndScalar.blockRanges, (⟨[true, false, true]⟩ : Mask).Splits r) →
        ∃ b, (⟨[true, false, true]⟩ : Mask).Splits (segmentVectorAndScalar.blockRanges.getD b
            default) ∧
          segmentVectorAndScalar.blockMaskFromComponentMask ⟨[true, false, true]⟩ =
            report (.partialBlock ⟨[true, false, true]⟩ b)) ∧
      (((⟨[true, false, true]⟩ : Mask).size : Int) = segmentVectorAndScalar.store.components →
        (∀ r ∈ segmentVectorAndScalar.blockRanges, ¬(⟨[true, false, true]⟩ : Mask).Splits r) →
        segmentVectorAndScalar.blockMaskFromComponentMask ⟨[true, false, true]⟩ =
          .ok ⟨segmentVectorAndScalar.blockRanges.map fun r =>
            (⟨[true, false, true]⟩ : Mask).get r.1⟩) :=
  ⟨segmentVectorAndScalar_constructed,
    blockMaskFromComponentMask_blocks segmentVectorAndScalar_constructed ⟨[true, false, true]⟩⟩

example : (segmentVectorAndScalar.blockMaskFromComponentMask ⟨[true, true, false]⟩).toOption =
    some ⟨[true, false]⟩ := by
  decide

end FiniteElements.Family
