import FiniteElements.Proofs.Family.NodeGrid
import FiniteElements.Element.Laws

/-!
# Restriction of continuous elements

The restriction matrices of a continuous element of degree `N` inject: coarse dof `i` takes
the value of the one fine dof at its node, in the first child that holds the node. A child
`ch` holds the node `x` (in units of `1/N` of the cell) when `2 x_a` lies in
`[N b_a, N + N b_a]` along every axis, `b_a` bit `a` of `ch`; there the node is
`2 x - N b` in units of the child.

Every node of the cell lies in some child (`exists_childHolds`), and its coordinates in a
child that holds it are again a grid point, so a node of the list: the search for the fine dof
never fails (`restrictionSource_eq`). Row `i` of the matrices therefore has a single one, in
the matrix of the first child holding the node, at the fine dof of that node, and zeros
elsewhere, so exactly one child contributes to each coarse row, as the transfer check asks
of the rows the element declares non-additive.

## Main definitions

* `FiniteElements.Family.childBits`, `ChildHolds`, `childNode`
* `FiniteElements.Family.restrictionSource`

## Main results

* `FiniteElements.Family.exists_childHolds`, `fineNode_of_childHolds`, `childNode_mem`
* `FiniteElements.Family.restrictionSource_eq`
* `FiniteElements.Family.maxAbs_of_zeroOne`, `contributingChildren_restriction`
* `FiniteElements.Family.continuousRestriction_injects`
-/

namespace FiniteElements.Family

set_option autoImplicit false

open FiniteElements.Cell FiniteElements.Dense FiniteElements.Element

section Children

/-- The bits of child `ch` of a cell of dimension `d`, axis `0` first: along axis `a` the child
is the upper half of the cell when bit `a` is one. -/
def childBits (d ch : Nat) : List Nat := (List.range d).map fun a => ch / 2 ^ a % 2

/-- Child `ch` of the cell holds the node `x`, given in units of `1/N` of the cell: along every
axis `a`, `2 x_a` lies in `[N b_a, N + N b_a]`, `b_a` bit `a` of `ch`. -/
def ChildHolds (N ch : Nat) (x : List Nat) : Prop :=
  List.Forall₂ (fun v b => N * b ≤ 2 * v ∧ 2 * v ≤ N + N * b) x (childBits x.length ch)

instance (N ch : Nat) (x : List Nat) : Decidable (ChildHolds N ch x) := by
  unfold ChildHolds
  infer_instance

/-- The node `x` of the cell in units of `1/N` of its child `ch`: `2 x - N b` axis by axis. -/
def childNode (N ch : Nat) (x : List Nat) : List Nat :=
  List.zipWith (fun v b => 2 * v - N * b) x (childBits x.length ch)

variable {N : Nat}

@[simp]
theorem length_childBits (d ch : Nat) : (childBits d ch).length = d := by
  simp [childBits]

/-- Bit `0` of a child comes first, then the bits of `ch / 2`. -/
theorem childBits_succ (d ch : Nat) : childBits (d + 1) ch = ch % 2 :: childBits d (ch / 2) := by
  simp only [childBits, List.range_succ_eq_map, List.map_cons, List.map_map]
  congr 1
  · simp
  · refine List.map_congr_left fun a _ => ?_
    simp only [Function.comp_apply, Nat.pow_succ', Nat.div_div_eq_div_mul]

/-- **Every node lies in a child**: along each axis take the lower half when `2 x_a ≤ N`, the
upper one otherwise. -/
theorem exists_childHolds {x : List Nat} (hx : ∀ v ∈ x, v ≤ N) :
    ∃ ch < 2 ^ x.length, ChildHolds N ch x := by
  induction x with
  | nil => exact ⟨0, by simp, by simp [ChildHolds, childBits]⟩
  | cons v x ih =>
    obtain ⟨ch, hch, hholds⟩ := ih fun w hw => hx w (List.mem_cons_of_mem v hw)
    have hv := hx v List.mem_cons_self
    refine ⟨(if 2 * v ≤ N then 0 else 1) + 2 * ch, ?_, ?_⟩
    · rw [List.length_cons, Nat.pow_succ]
      split <;> omega
    · have hbits : childBits (x.length + 1) ((if 2 * v ≤ N then 0 else 1) + 2 * ch) =
          (if 2 * v ≤ N then 0 else 1) :: childBits x.length ch := by
        rw [childBits_succ]
        congr 2 <;> split <;> omega
      rw [ChildHolds, List.length_cons, hbits]
      exact List.Forall₂.cons (by split <;> omega) hholds

/-- The fine coordinates `2 x - N b` all lie in `[0, N]` exactly when the child holds `x`. -/
theorem all_fine_iff {x bs : List Nat} (hlen : x.length = bs.length) :
    ((((x.zip bs).map fun (v, b) => 2 * (v : Int) - (N : Int) * b : List Int)).all
        fun y => 0 ≤ y ∧ y ≤ N) = true ↔
      List.Forall₂ (fun v b => N * b ≤ 2 * v ∧ 2 * v ≤ N + N * b) x bs := by
  rw [List.forall₂_iff_zip, List.all_eq_true]
  simp only [List.mem_map, Prod.exists, forall_exists_index, and_imp, decide_eq_true_eq]
  constructor
  · intro h
    refine ⟨hlen, fun {v b} hvb => ?_⟩
    have := h _ v b hvb rfl
    omega
  · rintro ⟨-, h⟩ y v b hvb rfl
    have := h hvb
    omega

/-- In a child holding `x`, the fine coordinates are the natural numbers `2 x - N b`. -/
theorem fine_eq_zipWith {x bs : List Nat}
    (h : List.Forall₂ (fun v b => N * b ≤ 2 * v ∧ 2 * v ≤ N + N * b) x bs) :
    ((x.zip bs).map fun (v, b) => 2 * (v : Int) - (N : Int) * b : List Int) =
      (List.zipWith (fun v b => 2 * v - N * b) x bs).map Int.ofNat := by
  induction h with
  | nil => rfl
  | cons hvb _ ih =>
    simp only [List.zip_cons_cons, List.map_cons, List.zipWith_cons_cons, ih, List.cons.injEq,
      and_true, Int.ofNat_eq_natCast]
    omega

theorem fineNode_of_childHolds {ch : Nat} {x : List Nat} (h : ChildHolds N ch x) :
    fineNode N x (childBits x.length ch) = some ((childNode N ch x).map Int.ofNat) := by
  rw [fineNode, if_pos ((all_fine_iff (by simp)).2 h), fine_eq_zipWith h]
  rfl

theorem fineNode_of_not_childHolds {ch : Nat} {x : List Nat} (h : ¬ ChildHolds N ch x) :
    fineNode N x (childBits x.length ch) = none := by
  rw [fineNode, if_neg fun hall => h ((all_fine_iff (by simp)).1 hall)]

/-- In a child holding it, a node of the cell is again a grid point, so a node of the list. -/
theorem childNode_mem {c : Hypercube} {ch : Nat} {x : List Nat} (hx : x.length = c.dim)
    (h : ChildHolds N ch x) : childNode N ch x ∈ continuousNodes c N := by
  have hle : ∀ {x bs : List Nat},
      List.Forall₂ (fun v b => N * b ≤ 2 * v ∧ 2 * v ≤ N + N * b) x bs →
        ∀ y ∈ List.zipWith (fun v b => 2 * v - N * b) x bs, y ≤ N := by
    intro x bs h
    induction h with
    | nil => simp
    | cons hvb _ ih =>
      intro y hy
      simp only [List.zipWith_cons_cons, List.mem_cons] at hy
      rcases hy with rfl | hy
      · omega
      · exact ih y hy
  refine mem_continuousNodes.2 ⟨?_, hle h⟩
  simp [childNode, hx]

end Children

section Source

variable {c : Hypercube} {N : Nat}

/-- The child and the fine dof that a coarse node takes its value from: the first child holding
the node, and the first node of the list at the node's coordinates in that child. -/
def restrictionSource (c : Hypercube) (N : Nat) (nodes : List (List Nat)) (x : List Nat) :
    Option (Nat × Nat) :=
  (List.range c.childrenPerCell).findSome? fun child =>
    (fineNode N x (childBits c.dim child)).bind fun fine =>
      (nodes.findIdx? fun m => m.map Int.ofNat == fine).map fun k => (child, k)

/-- The restriction matrices tabulate, for each child, the rows whose source lies in it. -/
theorem continuousRestriction_eq (nodes : List (List Nat)) :
    continuousRestriction c N nodes = (List.range c.childrenPerCell).map fun child =>
      Matrix.tabulate nodes.length nodes.length fun i k =>
        if (nodes.map (restrictionSource c N nodes)).getD i none == some (child, k) then 1
        else 0 := by
  simp only [continuousRestriction, Array.getD_eq_getD_getElem?, List.getElem?_toArray]
  rfl

/-- A search over `0, 1, …, n - 1` finds the value at the first place that has one. -/
theorem findSome?_range_eq_some {β : Type} {f : Nat → Option β} {n c₀ : Nat} {b : β}
    (hc : c₀ < n) (hf : f c₀ = some b) (hbefore : ∀ ch < c₀, f ch = none) :
    (List.range n).findSome? f = some b := by
  induction n with
  | zero => omega
  | succ n ih =>
    rw [List.range_succ, List.findSome?_append]
    rcases Nat.lt_succ_iff_lt_or_eq.1 hc with hlt | rfl
    · rw [ih hlt]
      rfl
    · rw [List.findSome?_eq_none_iff.2 fun ch hch => hbefore ch (List.mem_range.1 hch)]
      simp [hf]

/-- **The source of every node.** A node of the list takes its value from the first child that
holds it, at the index of its coordinates in that child. -/
theorem restrictionSource_eq {x : List Nat} (hx : x ∈ continuousNodes c N) :
    ∃ c₀ < c.childrenPerCell, ∃ k₀ < (continuousNodes c N).length,
      ChildHolds N c₀ x ∧ (∀ ch < c₀, ¬ ChildHolds N ch x) ∧
      (continuousNodes c N).getD k₀ [] = childNode N c₀ x ∧
      restrictionSource c N (continuousNodes c N) x = some (c₀, k₀) := by
  classical
  obtain ⟨hlen, hle⟩ := mem_continuousNodes.1 hx
  obtain ⟨ch, hch, hholds⟩ := exists_childHolds hle
  have hex : ∃ ch, ChildHolds N ch x := ⟨ch, hholds⟩
  have hc₀ : Nat.find hex < c.childrenPerCell := by
    have := Nat.find_min' hex hholds
    rw [hlen] at hch
    exact lt_of_le_of_lt this hch
  -- the node's coordinates in the first child are a node of the list, found by the search
  have hmem := childNode_mem hlen (Nat.find_spec hex)
  obtain ⟨k₀, hk⟩ := Option.isSome_iff_exists.1 (List.findIdx?_isSome.trans
    (List.any_eq_true.2 ⟨_, hmem, beq_self_eq_true _⟩) :
      ((continuousNodes c N).findIdx? fun m => m.map Int.ofNat ==
        (childNode N (Nat.find hex) x).map Int.ofNat).isSome)
  obtain ⟨hk₀, hp, -⟩ := List.findIdx?_eq_some_iff_getElem.1 hk
  have hnode : (continuousNodes c N).getD k₀ [] = childNode N (Nat.find hex) x := by
    rw [List.getD_eq_getElem _ _ hk₀]
    exact (List.map_inj_right fun _ _ h => Int.ofNat_inj.1 h).1 (beq_iff_eq.1 hp)
  refine ⟨Nat.find hex, hc₀, k₀, hk₀, Nat.find_spec hex, fun ch' h' => Nat.find_min hex h',
    hnode, findSome?_range_eq_some hc₀ ?_ fun ch' h' => ?_⟩
  · rw [← hlen, fineNode_of_childHolds (Nat.find_spec hex)]
    simp [hk]
  · rw [← hlen, fineNode_of_not_childHolds (Nat.find_min hex h')]
    rfl

end Source

section Rows

/-- Entry `(i, j)` of a tabulated matrix is the tabulated value. -/
theorem get_tabulate {r c i j : Nat} {f : Nat → Nat → Float} (hi : i < r) (hj : j < c) :
    (Matrix.tabulate r c f).get i j = f i j := by
  have h := getElem?_flatMap_range_of_length (f := fun i => (List.range c).map (f i))
    (n := fun _ => c) (by simp) hi hj
  rw [sum_range_const] at h
  simp only [Matrix.get, Matrix.tabulate, Array.getD_eq_getD_getElem?, List.getElem?_toArray, h]
  simp [hj]

theorem getRow_tabulate {r c i : Nat} {f : Nat → Nat → Float} (hi : i < r) :
    (Matrix.tabulate r c f).getRow i = (List.range c).map (f i) :=
  List.map_congr_left fun _ hj => get_tabulate hi (List.mem_range.1 hj)

/-- One step of the running maximum over zeros and ones. -/
theorem ieeeMax_abs_zeroOne {m v : Float} (hm : m = 0 ∨ m = 1) (hv : v = 0 ∨ v = 1) :
    Numeric.ieeeMax m v.abs = if m = 1 ∨ v = 1 then 1 else 0 := by
  rcases hm with rfl | rfl <;> rcases hv with rfl | rfl <;> decide

theorem foldl_ieeeMax_zeroOne {row : List Float} (h : ∀ v ∈ row, v = 0 ∨ v = 1) {m : Float}
    (hm : m = 0 ∨ m = 1) :
    row.foldl (fun m v => Numeric.ieeeMax m v.abs) m = if m = 1 ∨ ∃ v ∈ row, v = 1 then 1 else 0 := by
  induction row generalizing m with
  | nil => rcases hm with rfl | rfl <;> decide
  | cons v row ih =>
    classical
    have hv := h v List.mem_cons_self
    rw [List.foldl_cons, ieeeMax_abs_zeroOne hm hv,
      ih (fun w hw => h w (List.mem_cons_of_mem v hw)) (by split <;> [exact Or.inr rfl; exact Or.inl rfl])]
    have h01 : (0 : Float) ≠ 1 := by decide
    by_cases hv1 : v = 1
    · simp [hv1]
    · obtain rfl : v = 0 := hv.resolve_right hv1
      by_cases hm1 : m = 1 <;> simp [hm1, h01, h01.symm]

/-- **The largest magnitude of a row of zeros and ones** is one when the row has a one, and
zero otherwise. -/
theorem maxAbs_of_zeroOne {row : List Float} (h : ∀ v ∈ row, v = 0 ∨ v = 1) :
    maxAbs row = if ∃ v ∈ row, v = 1 then 1 else 0 := by
  rw [maxAbs, foldl_ieeeMax_zeroOne h (Or.inl rfl)]
  simp only [show ((0 : Float) = 1) = False from eq_false (by decide), false_or]

variable {c : Hypercube} {N : Nat}

/-- Entry `(i, k)` of the matrix of child `ch` is one when row `i` takes its value from the fine
dof `k` of `ch`, and zero otherwise. -/
theorem get_restriction {i k ch c₀ k₀ : Nat} (hi : i < (continuousNodes c N).length)
    (hk : k < (continuousNodes c N).length) (hch : ch < c.childrenPerCell)
    (hsrc : restrictionSource c N (continuousNodes c N) ((continuousNodes c N).getD i []) =
      some (c₀, k₀)) :
    ((continuousRestriction c N (continuousNodes c N)).getD ch .empty).get i k =
      if ch = c₀ ∧ k = k₀ then 1 else 0 := by
  have hget : ((continuousNodes c N).map (restrictionSource c N (continuousNodes c N))).getD i
      none = some (c₀, k₀) := by
    rw [List.getD_eq_getElem?_getD, List.getElem?_map, List.getElem?_eq_getElem hi]
    rw [List.getD_eq_getElem _ _ hi] at hsrc
    simp [hsrc]
  rw [continuousRestriction_eq, getD_map_range hch, get_tabulate hi hk, hget]
  by_cases h : ch = c₀ ∧ k = k₀
  · obtain ⟨rfl, rfl⟩ := h
    simp
  · rw [if_neg h, if_neg]
    rintro hsame
    simp only [beq_iff_eq, Option.some.injEq, Prod.mk.injEq] at hsame
    exact h ⟨hsame.1.symm, hsame.2.symm⟩

theorem getRow_restriction {i ch c₀ k₀ : Nat} (hi : i < (continuousNodes c N).length)
    (hch : ch < c.childrenPerCell)
    (hsrc : restrictionSource c N (continuousNodes c N) ((continuousNodes c N).getD i []) =
      some (c₀, k₀)) :
    ((continuousRestriction c N (continuousNodes c N)).getD ch .empty).getRow i =
      (List.range (continuousNodes c N).length).map fun k => if ch = c₀ ∧ k = k₀ then 1 else 0 := by
  have hcols : ((continuousRestriction c N (continuousNodes c N)).getD ch .empty).cols =
      (continuousNodes c N).length := by
    rw [continuousRestriction_eq, getD_map_range hch]
    rfl
  rw [Matrix.getRow, hcols]
  exact List.map_congr_left fun k hk => get_restriction hi (List.mem_range.1 hk) hch hsrc

/-- **One contributing child**: the only child whose matrix has a nonzero entry in row `i` is
the child the row takes its value from. -/
theorem contributingChildren_restriction {i c₀ k₀ : Nat} (hi : i < (continuousNodes c N).length)
    (hc₀ : c₀ < c.childrenPerCell) (hk₀ : k₀ < (continuousNodes c N).length)
    (hsrc : restrictionSource c N (continuousNodes c N) ((continuousNodes c N).getD i []) =
      some (c₀, k₀)) :
    (List.range c.childrenPerCell).filter (fun ch =>
      maxAbs (((continuousRestriction c N (continuousNodes c N)).getD ch .empty).getRow i) != 0) =
        [c₀] := by
  have hone : ((1 : Float) != 0) = true := by decide
  have hzero : ((0 : Float) != 0) = false := by decide
  rw [List.filter_congr (q := fun ch => decide (ch = c₀)) fun ch hch => ?_, List.filter_eq,
    List.count_eq_one_of_mem List.nodup_range (List.mem_range.2 hc₀), List.replicate_one]
  rw [getRow_restriction hi (List.mem_range.1 hch) hsrc, maxAbs_of_zeroOne (by
    simp only [List.mem_map]
    rintro v ⟨k, -, rfl⟩
    split <;> simp)]
  -- the row has a one, at the source's fine dof, exactly in the source's child
  by_cases hch₀ : ch = c₀
  · have hmem : (1 : Float) ∈ (List.range (continuousNodes c N).length).map fun k =>
        if ch = c₀ ∧ k = k₀ then (1 : Float) else 0 :=
      List.mem_map.2 ⟨k₀, List.mem_range.2 hk₀, by simp [hch₀]⟩
    rw [if_pos ⟨1, hmem, rfl⟩, hone, decide_eq_true hch₀]
  · have hmem : (1 : Float) ∉ (List.range (continuousNodes c N).length).map fun k =>
        if ch = c₀ ∧ k = k₀ then (1 : Float) else 0 := by
      simp only [List.mem_map, not_exists, not_and]
      intro k _
      simp only [hch₀, false_and, if_false]
      decide
    rw [if_neg fun ⟨v, hv, hv1⟩ => hmem (hv1 ▸ hv), hzero, decide_eq_false hch₀]

end Rows

section Injection

variable {c : Hypercube} {N : Nat}

/-- A continuous element declares every restriction row non-additive and stores the restriction
matrices of its node list. -/
theorem continuousDefinition_restriction {d : Definition} (h : continuousDefinition c N = .ok d) :
    d.restriction = continuousRestriction c N (continuousNodes c N) ∧
      ∀ i, d.additive.getD i false = false := by
  obtain ⟨-, -, hadd, -, -, hres, -⟩ := continuousDefinition_eq_ok h
  refine ⟨hres, fun i => ?_⟩
  rw [hadd, List.getD_eq_getElem?_getD, List.getElem?_replicate]
  split <;> rfl

/-- **The restriction of a continuous element injects.** For degree `N ≥ 1` the element stores
one square matrix of size `(N + 1) ^ d` per child and declares every row non-additive. Row `i`
takes its value from the first child `c₀` that holds node `i`, at the fine dof `k₀` whose node is
node `i` in units of `c₀`: that entry is one, every other entry of row `i` in every child is
zero, and `c₀` is the only child contributing to the row. -/
theorem continuousRestriction_injects (hN : 1 ≤ N) :
    (∀ d, continuousDefinition c N = .ok d →
      d.restriction = continuousRestriction c N (continuousNodes c N) ∧
        ∀ i, d.additive.getD i false = false) ∧
    (continuousRestriction c N (continuousNodes c N)).length = c.childrenPerCell ∧
    (∀ m ∈ continuousRestriction c N (continuousNodes c N),
      m.rows = (N + 1) ^ c.dim ∧ m.cols = (N + 1) ^ c.dim) ∧
    ∀ i < (N + 1) ^ c.dim, ∃ c₀ < c.childrenPerCell, ∃ k₀ < (N + 1) ^ c.dim,
      ChildHolds N c₀ ((continuousNodes c N).getD i []) ∧
      (∀ ch < c₀, ¬ ChildHolds N ch ((continuousNodes c N).getD i [])) ∧
      (continuousNodes c N).getD k₀ [] = childNode N c₀ ((continuousNodes c N).getD i []) ∧
      (∀ ch < c.childrenPerCell, ∀ k < (N + 1) ^ c.dim,
        ((continuousRestriction c N (continuousNodes c N)).getD ch .empty).get i k =
          if ch = c₀ ∧ k = k₀ then 1 else 0) ∧
      (List.range c.childrenPerCell).filter (fun ch =>
        maxAbs (((continuousRestriction c N (continuousNodes c N)).getD ch .empty).getRow i) !=
          0) = [c₀] := by
  have hlen := length_continuousNodes (c := c) hN
  refine ⟨fun _ hd => continuousDefinition_restriction hd, by simp [continuousRestriction_eq],
    fun m hm => ?_, fun i hi => ?_⟩
  · rw [continuousRestriction_eq, List.mem_map] at hm
    obtain ⟨_, -, rfl⟩ := hm
    exact ⟨hlen, hlen⟩
  · rw [← hlen] at hi ⊢
    obtain ⟨c₀, hc₀, k₀, hk₀, hholds, hfirst, hnode, hsrc⟩ :=
      restrictionSource_eq (getD_mem_of_lt [] hi)
    exact ⟨c₀, hc₀, k₀, hk₀, hholds, hfirst, hnode,
      fun ch hch k hk => get_restriction hi hk hch hsrc,
      contributingChildren_restriction hi hc₀ hk₀ hsrc⟩

/-- The quadratic element on the square: each of its nine nodes is injected from one child. -/
theorem quadraticRestriction_injects : 1 ≤ 2 ∧
    ((∀ d, continuousDefinition .square 2 = .ok d →
      d.restriction = continuousRestriction .square 2 (continuousNodes .square 2) ∧
        ∀ i, d.additive.getD i false = false) ∧
    (continuousRestriction .square 2 (continuousNodes .square 2)).length =
      Hypercube.square.childrenPerCell ∧
    (∀ m ∈ continuousRestriction .square 2 (continuousNodes .square 2),
      m.rows = (2 + 1) ^ Hypercube.square.dim ∧ m.cols = (2 + 1) ^ Hypercube.square.dim) ∧
    ∀ i < (2 + 1) ^ Hypercube.square.dim, ∃ c₀ < Hypercube.square.childrenPerCell,
      ∃ k₀ < (2 + 1) ^ Hypercube.square.dim,
      ChildHolds 2 c₀ ((continuousNodes .square 2).getD i []) ∧
      (∀ ch < c₀, ¬ ChildHolds 2 ch ((continuousNodes .square 2).getD i [])) ∧
      (continuousNodes .square 2).getD k₀ [] =
        childNode 2 c₀ ((continuousNodes .square 2).getD i []) ∧
      (∀ ch < Hypercube.square.childrenPerCell, ∀ k < (2 + 1) ^ Hypercube.square.dim,
        ((continuousRestriction .square 2 (continuousNodes .square 2)).getD ch .empty).get i k =
          if ch = c₀ ∧ k = k₀ then 1 else 0) ∧
      (List.range Hypercube.square.childrenPerCell).filter (fun ch =>
        maxAbs (((continuousRestriction .square 2 (continuousNodes .square 2)).getD ch
          .empty).getRow i) != 0) = [c₀]) :=
  ⟨by decide, continuousRestriction_injects (c := .square) (N := 2) (by decide)⟩

end Injection

end FiniteElements.Family
