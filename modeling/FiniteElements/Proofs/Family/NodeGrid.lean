import FiniteElements.Proofs.Element.SupportPoints

/-!
# The nodes of continuous elements fill the grid

The continuous element of degree `N ≥ 1` on the cell of dimension `d` has one dof per point of the
grid `{0, …, N}^d`, in units of `1/N`. Its node list is a rearrangement of the grid
(`perm_gridPoints`), so it has `(N + 1)^d` entries, no point twice and every point once.

Every point of the grid lies on exactly one object of the cell: read each coordinate as the low
side `0`, the high side `N` or inside, and the pattern of sides (`gridShape`) is the pattern of
nodes of one object (`objectShape`), checked on the three reference cells; the inside
coordinates then name the dof on that object (`mem_continuousNodes_of_grid`). Points with every
coordinate inside are the interior of the cell itself, numbered lexicographically.

The placement of the dofs object by object, in the words of the reference cell:

* vertex `v` at `N` times the bits of `v` (`getElem?_continuousNodes_vertexBits`);
* the `e`-th dof of line `l` at its start vertex, `e + 1` further along the line's axis
  (`getElem?_continuousNodes_lineStep`);
* the interior of a face of the cube at its side on the normal axis and at the interior pair on
  its `(u, v)` axes, `u` fastest (`getElem?_continuousNodes_faceFrame`);
* the interior of the square and of the cube lexicographically, `x` fastest.

## Main definitions

* `FiniteElements.Family.gridPoints`, `FiniteElements.Family.gridShape`,
  `FiniteElements.Family.shapesFrom`

## Main results

* `FiniteElements.Family.length_continuousNodes`, `perm_gridPoints`, `nodup_continuousNodes`
* `FiniteElements.Family.continuousNodes_grid`
-/

namespace FiniteElements.Family

set_option autoImplicit false

open FiniteElements.Cell FiniteElements.Element

section Grid

/-- The points of the grid `{0, …, N}^d`, lexicographically with the first coordinate slowest. -/
def gridPoints (N : Nat) : Nat → List (List Nat)
  | 0 => [[]]
  | d + 1 => (List.range (N + 1)).flatMap fun a => (gridPoints N d).map (a :: ·)

variable {N : Nat}

theorem mem_gridPoints {d : Nat} {x : List Nat} :
    x ∈ gridPoints N d ↔ x.length = d ∧ ∀ a ∈ x, a ≤ N := by
  induction d generalizing x with
  | zero => cases x <;> simp [gridPoints]
  | succ d ih =>
    cases x with
    | nil => simp [gridPoints]
    | cons a x =>
      simp only [gridPoints, List.mem_flatMap, List.mem_range, List.mem_map, List.cons.injEq,
        ih, List.length_cons, List.mem_cons, forall_eq_or_imp]
      constructor
      · rintro ⟨a', ha', x', ⟨hlen, hx'⟩, rfl, rfl⟩
        exact ⟨by omega, by omega, hx'⟩
      · rintro ⟨hlen, ha, hx⟩
        exact ⟨a, by omega, x, ⟨by omega, hx⟩, rfl, rfl⟩

theorem length_gridPoints (d : Nat) : (gridPoints N d).length = (N + 1) ^ d := by
  induction d with
  | zero => rfl
  | succ d ih => simp [gridPoints, List.length_flatMap, ih, Nat.pow_succ, Nat.mul_comm]

theorem nodup_gridPoints (d : Nat) : (gridPoints N d).Nodup := by
  induction d with
  | zero => simp [gridPoints]
  | succ d ih =>
    rw [gridPoints, List.nodup_flatMap]
    refine ⟨fun a _ => ih.map List.cons_injective, ?_⟩
    -- points with different first coordinates differ
    refine List.nodup_range.imp fun {a a'} hne => ?_
    simp only [Function.onFun, List.disjoint_left, List.mem_map]
    rintro _ ⟨x, -, rfl⟩ ⟨x', -, h⟩
    exact hne (List.cons.inj h).1.symm

end Grid

section Pairs

variable {N : Nat}

/-- Interior pair `j · (N - 1) + i` of a face frame is `(i + 1, j + 1)`: `u` runs fastest. -/
theorem getElem?_interiorPairs_mul_add {i j : Nat} (hi : i < N - 1) (hj : j < N - 1) :
    (interiorPairs N)[j * (N - 1) + i]? = some (i + 1, j + 1) := by
  have h := getElem?_flatMap_range_of_length
    (f := fun j => (List.range (N - 1)).map fun i => (i + 1, j + 1)) (n := fun _ => N - 1)
    (by simp) hj hi
  simpa [interiorPairs, List.sum_replicate, List.getElem?_range hi] using h

theorem getD_interiorPairs_mul_add {i j : Nat} (hi : i < N - 1) (hj : j < N - 1) :
    (interiorPairs N).getD (j * (N - 1) + i) (0, 0) = (i + 1, j + 1) := by
  rw [List.getD_eq_getElem?_getD, getElem?_interiorPairs_mul_add hi hj, Option.getD_some]

theorem mem_interiorPairs {p : Nat × Nat} :
    p ∈ interiorPairs N ↔ 1 ≤ p.1 ∧ p.1 < N ∧ 1 ≤ p.2 ∧ p.2 < N := by
  obtain ⟨u, v⟩ := p
  simp only [interiorPairs, List.mem_flatMap, List.mem_range, List.mem_map, Prod.mk.injEq]
  constructor
  · rintro ⟨j, hj, i, hi, rfl, rfl⟩
    omega
  · rintro ⟨hu, hu', hv, hv'⟩
    exact ⟨v - 1, by omega, u - 1, by omega, by omega, by omega⟩

end Pairs

section Length

variable {c : Hypercube} {N : Nat}

/-- **The continuous element has `(N + 1)^d` nodes.** -/
theorem length_continuousNodes (hN : 1 ≤ N) : (continuousNodes c N).length = (N + 1) ^ c.dim := by
  obtain ⟨m, rfl⟩ : ∃ m, N = m + 1 := ⟨N - 1, by omega⟩
  cases c <;>
    simp [continuousNodes, List.length_flatMap, length_interiorPairs, Hypercube.verticesPerCell,
      Hypercube.objectsPerCell, Hypercube.lines, Hypercube.squareLines, Hypercube.cubeLines,
      Hypercube.dim] <;>
    ring

/-- A coordinate of a vertex is `0` or `N`. -/
theorem vertexNode_le {v k : Nat} : v / Nat.pow 2 k % 2 * N ≤ N := by
  have : v / Nat.pow 2 k % 2 ≤ 1 := Nat.le_of_lt_succ (Nat.mod_lt _ (by norm_num))
  simpa using Nat.mul_le_mul_right N this

/-- **Every node lies on the grid**: `d` coordinates, each at most `N`. -/
theorem grid_of_mem_continuousNodes {x : List Nat} (hx : x ∈ continuousNodes c N) :
    x.length = c.dim ∧ ∀ a ∈ x, a ≤ N := by
  unfold continuousNodes at hx
  simp only [List.mem_append, List.mem_map, List.mem_range, List.mem_flatMap] at hx
  rcases hx with (⟨v, -, rfl⟩ | ⟨⟨a, b⟩, -, j, hj, rfl⟩) | hinner
  · refine ⟨by simp [vertexNode], fun y hy => ?_⟩
    obtain ⟨k, -, rfl⟩ := List.mem_map.1 hy
    exact vertexNode_le
  · refine ⟨by simp [vertexNode], fun y hy => ?_⟩
    rcases List.mem_or_eq_of_mem_set hy with hy | rfl
    · obtain ⟨k, -, rfl⟩ := List.mem_map.1 hy
      exact vertexNode_le
    · omega
  · cases c with
    | interval => simp at hinner
    | square =>
      simp only [List.mem_map] at hinner
      obtain ⟨⟨i, j⟩, hij, rfl⟩ := hinner
      have := mem_interiorPairs.1 hij
      refine ⟨rfl, fun y hy => ?_⟩
      simp only [List.mem_cons, List.not_mem_nil, or_false] at hy
      omega
    | cube =>
      simp only [List.mem_append, List.mem_flatMap, List.mem_range, List.mem_map] at hinner
      rcases hinner with ⟨f, -, ⟨i, j⟩, hij, rfl⟩ | ⟨k, hk, ⟨i, j⟩, hij, rfl⟩
      · have := mem_interiorPairs.1 hij
        refine ⟨by simp [Hypercube.dim], fun y hy => ?_⟩
        -- the entries of a face node: `0`, the side `f % 2 · N`, or the interior pair
        rcases List.mem_or_eq_of_mem_set hy with hy | rfl
        · rcases List.mem_or_eq_of_mem_set hy with hy | rfl
          · rcases List.mem_or_eq_of_mem_set hy with hy | rfl
            · simp [List.eq_of_mem_replicate hy]
            · have : f % 2 ≤ 1 := Nat.le_of_lt_succ (Nat.mod_lt _ (by norm_num))
              simpa using Nat.mul_le_mul_right N this
          · omega
        · omega
      · have := mem_interiorPairs.1 hij
        refine ⟨rfl, fun y hy => ?_⟩
        simp only [List.mem_cons, List.not_mem_nil, or_false] at hy
        omega

end Length

section Shapes

/-- Whether a coordinate runs inside its object. -/
def Coord.isInner : Coord → Bool
  | .inner _ => true
  | .side _ => false

/-- The pattern of a grid point: each coordinate on the low side `0`, on the high side `N`, or
inside, the inside ones numbered from `i` in the order of the axes. -/
def gridShape (N : Nat) : Nat → List Nat → List Coord
  | _, [] => []
  | i, a :: x =>
    if a = 0 then .side 0 :: gridShape N i x
    else if a = N then .side 1 :: gridShape N i x
    else .inner i :: gridShape N (i + 1) x

/-- The coordinates of a grid point strictly between `0` and `N`, in the order of the axes. -/
def insideCoords (N : Nat) (x : List Nat) : List Nat := x.filter fun a => a ≠ 0 ∧ a ≠ N

/-- All patterns of `d` coordinates, the inside ones numbered from `i`. -/
def shapesFrom : Nat → Nat → List (List Coord)
  | _, 0 => [[]]
  | i, d + 1 => (shapesFrom i d).map (.side 0 :: ·) ++ (shapesFrom i d).map (.side 1 :: ·) ++
      (shapesFrom (i + 1) d).map (.inner i :: ·)

variable {N : Nat}

theorem insideCoords_cons (a : Nat) (x : List Nat) :
    insideCoords N (a :: x) = if a ≠ 0 ∧ a ≠ N then a :: insideCoords N x else insideCoords N x := by
  by_cases h : a ≠ 0 ∧ a ≠ N
  · simp [insideCoords, h]
  · simp only [insideCoords, List.filter_cons, if_neg h]
    simp only [decide_eq_true_eq, ite_eq_right_iff]
    exact fun h' => absurd h' h

/-- A grid point is its pattern evaluated at its inside coordinates. -/
theorem map_eval_gridShape (x : List Nat) :
    ∀ (i : Nat) (pre : List Nat), pre.length = i →
      (gridShape N i x).map (Coord.eval N (pre ++ insideCoords N x)) = x := by
  induction x with
  | nil => intro i pre _; rfl
  | cons a x ih =>
    intro i pre hpre
    by_cases h0 : a = 0
    · subst h0
      rw [gridShape, if_pos rfl, insideCoords_cons, if_neg (by simp), List.map_cons, ih i pre hpre]
      simp [Coord.eval]
    by_cases hN : a = N
    · rw [gridShape, if_neg h0, if_pos hN, insideCoords_cons, if_neg (by simp [hN]), List.map_cons,
        ih i pre hpre, Coord.eval, hN, Nat.one_mul]
    · -- an inside coordinate is read from its own slot, after the `i` before it
      have hrest := ih (i + 1) (pre ++ [a]) (by simp [hpre])
      rw [List.append_assoc, List.singleton_append] at hrest
      have hslot : (pre ++ a :: insideCoords N x).getD i 0 = a := by
        rw [List.getD_eq_getElem?_getD, ← hpre, List.getElem?_append_right (le_refl _),
          Nat.sub_self]
        rfl
      rw [gridShape, if_neg h0, if_neg hN, insideCoords_cons, if_pos ⟨h0, hN⟩, List.map_cons,
        hrest, Coord.eval, hslot]

theorem countP_gridShape (x : List Nat) (i : Nat) :
    (gridShape N i x).countP Coord.isInner = (insideCoords N x).length := by
  induction x generalizing i with
  | nil => rfl
  | cons a x ih =>
    by_cases h0 : a = 0
    · rw [gridShape, if_pos h0, insideCoords_cons, if_neg (by simp [h0]), List.countP_cons, ih i]
      rfl
    by_cases hN : a = N
    · rw [gridShape, if_neg h0, if_pos hN, insideCoords_cons, if_neg (by simp [hN]),
        List.countP_cons, ih i]
      rfl
    · rw [gridShape, if_neg h0, if_neg hN, insideCoords_cons, if_pos ⟨h0, hN⟩, List.countP_cons,
        ih (i + 1)]
      rfl

theorem gridShape_mem_shapesFrom (x : List Nat) (i : Nat) :
    gridShape N i x ∈ shapesFrom i x.length := by
  induction x generalizing i with
  | nil => simp [gridShape, shapesFrom]
  | cons a x ih =>
    simp only [gridShape, shapesFrom, List.length_cons, List.mem_append, List.mem_map]
    split_ifs
    · exact .inl (.inl ⟨_, ih i, rfl⟩)
    · exact .inl (.inr ⟨_, ih i, rfl⟩)
    · exact .inr ⟨_, ih (i + 1), rfl⟩

/-- **Every pattern is an object's.** On each reference cell, a pattern with fewer inside
coordinates than the cell's dimension is the pattern of nodes of one object of that kind; the
one with every coordinate inside is the cell's interior. -/
theorem shapesFrom_objectShape (c : Hypercube) :
    ∀ s ∈ shapesFrom 0 c.dim, s = (List.range c.dim).map Coord.inner ∨
      (s.countP Coord.isInner < c.dim ∧ ∃ o < c.objectsPerCell.getD (s.countP Coord.isInner) 0,
        objectShape c (s.countP Coord.isInner) o = s) := by
  cases c <;> decide

/-- The inside coordinates of a point on an object of kind `κ ≤ 2` name one of its dofs. -/
theorem exists_innerCoords {ins : List Nat} (hlen : ins.length ≤ 2)
    (hin : ∀ a ∈ ins, 1 ≤ a ∧ a < N) :
    ∃ e < (N - 1) ^ ins.length, innerCoords N ins.length e = ins := by
  match ins, hlen with
  | [], _ => exact ⟨0, by simp, rfl⟩
  | [t], _ =>
    have ht := hin t (by simp)
    exact ⟨t - 1, by simp; omega, by simp [innerCoords]; omega⟩
  | [u, v], _ =>
    have hu := hin u (by simp)
    have hv := hin v (by simp)
    refine ⟨(v - 1) * (N - 1) + (u - 1), ?_, ?_⟩
    · have := Nat.mul_le_mul_right (N - 1) (show v - 1 + 1 ≤ N - 1 by omega)
      rw [Nat.add_mul, Nat.one_mul] at this
      show _ < (N - 1) ^ 2
      rw [Nat.pow_two]
      omega
    · simp only [List.length_cons, List.length_nil, innerCoords,
        getD_interiorPairs_mul_add (show u - 1 < N - 1 by omega) (show v - 1 < N - 1 by omega)]
      simp only [List.cons.injEq, and_true]
      omega

end Shapes

section Placement

variable {N : Nat}

theorem length_vertexLinePrefix (c : Hypercube) :
    ((List.range c.verticesPerCell).map (vertexNode c N) ++
      c.lines.flatMap fun (p : Nat × Nat) => (List.range (N - 1)).map fun j =>
        (vertexNode c N p.1).set (Hypercube.highBit (p.1 ^^^ p.2)) (j + 1)).length =
      c.verticesPerCell + c.linesPerCell * (N - 1) := by
  rw [List.length_append, length_vertexNodes, length_lineNodes]

/-- **The interior of the square**, lexicographically with `x` fastest. -/
theorem getElem?_continuousNodes_squareInterior {i j : Nat} (hi : i < N - 1) (hj : j < N - 1) :
    (continuousNodes .square N)[4 + 4 * (N - 1) + (j * (N - 1) + i)]? = some [i + 1, j + 1] := by
  unfold continuousNodes
  dsimp only
  have hpre := length_vertexLinePrefix (N := N) .square
  rw [List.getElem?_append_right (by rw [hpre]; exact Nat.le_add_right _ _), hpre]
  rw [show Hypercube.square.verticesPerCell + Hypercube.square.linesPerCell * (N - 1) =
      4 + 4 * (N - 1) from rfl, Nat.add_sub_cancel_left, List.getElem?_map,
    getElem?_interiorPairs_mul_add hi hj]
  rfl

/-- **The interior of the cube**, lexicographically with `x` fastest. -/
theorem getElem?_continuousNodes_cubeInterior {i j k : Nat} (hi : i < N - 1) (hj : j < N - 1)
    (hk : k < N - 1) :
    (continuousNodes .cube N)[8 + 12 * (N - 1) + 6 * (N - 1) ^ 2 +
      (k * (N - 1) ^ 2 + (j * (N - 1) + i))]? = some [i + 1, j + 1, k + 1] := by
  unfold continuousNodes
  dsimp only
  have hpre := length_vertexLinePrefix (N := N) .cube
  have hfaces : ((List.range 6).flatMap fun f => (interiorPairs N).map fun (p : Nat × Nat) =>
      (((List.replicate 3 0).set (f / 2) (f % 2 * N)).set
        (((List.range 3).filter (· != f / 2)).getD 0 0) p.1).set
        (((List.range 3).filter (· != f / 2)).getD 1 0) p.2).length = 6 * (N - 1) ^ 2 := by
    simp [List.length_flatMap, length_interiorPairs]
    omega
  rw [show Hypercube.cube.verticesPerCell + Hypercube.cube.linesPerCell * (N - 1) =
      8 + 12 * (N - 1) from rfl] at hpre
  rw [List.getElem?_append_right (by rw [hpre]; omega), hpre,
    show 8 + 12 * (N - 1) + 6 * (N - 1) ^ 2 + (k * (N - 1) ^ 2 + (j * (N - 1) + i)) -
      (8 + 12 * (N - 1)) = 6 * (N - 1) ^ 2 + (k * (N - 1) ^ 2 + (j * (N - 1) + i)) by omega]
  rw [List.getElem?_append_right (by rw [hfaces]; exact Nat.le_add_right _ _), hfaces,
    Nat.add_sub_cancel_left, ← sum_range_const k ((N - 1) ^ 2),
    getElem?_flatMap_range_of_length (n := fun _ => (N - 1) ^ 2) (by simp [length_interiorPairs]) hk
      (by rw [Nat.pow_two]; exact mul_add_lt_mul hj hi), List.getElem?_map, getElem?_interiorPairs_mul_add hi hj]
  rfl

/-- **Vertex `v` sits at `N` times the bits of `v`.** -/
theorem getElem?_continuousNodes_vertexBits {c : Hypercube} {v : Nat} (hv : v < c.verticesPerCell) :
    (continuousNodes c N)[v]? = some ((List.range c.dim).map fun k => N * (v / 2 ^ k % 2)) := by
  rw [getElem?_continuousNodes_vertex hv]
  simp [objectShape, Coord.eval, Nat.mul_comm]

/-- Every line starts at the end with the lower coordinate along its axis, an axis of the cell;
checked on the three reference cells. -/
theorem lines_startLow (c : Hypercube) : ∀ l < c.linesPerCell,
    (c.lines.getD l (0, 0)).1 / 2 ^ ((c.lines.getD l (0, 0)).1 ^^^ (c.lines.getD l (0, 0)).2).log2 % 2
      = 0 ∧ ((c.lines.getD l (0, 0)).1 ^^^ (c.lines.getD l (0, 0)).2).log2 < c.dim := by
  cases c <;> decide

/-- **The dofs of a line step along its axis.** The `e`-th dof of line `l` sits at the line's
start vertex moved `e + 1` along the line's axis. -/
theorem getElem?_continuousNodes_lineStep {c : Hypercube} {l : Nat} (hl : l < c.linesPerCell) :
    ∃ a b ax, c.lineVertices l = .ok (a, b) ∧ c.lineAxis l = .ok ax ∧ ∀ e < N - 1,
      (continuousNodes c N)[c.verticesPerCell + l * (N - 1) + e]? =
        some ((List.range c.dim).map fun k => N * (a / 2 ^ k % 2) + if k = ax then e + 1 else 0) := by
  obtain ⟨hlow, hax⟩ := lines_startLow c l hl
  have hverts : c.lineVertices l = .ok (c.lines.getD l (0, 0)) := by
    simp [Hypercube.lineVertices, Hypercube.check, hl, bind, Except.bind, pure, Except.pure]
  generalize hp : c.lines.getD l (0, 0) = p at hlow hax hverts
  obtain ⟨a, b⟩ := p
  refine ⟨a, b, (a ^^^ b).log2, hverts, ?_, fun e he => ?_⟩
  · simp [Hypercube.lineAxis, hverts, Hypercube.highBit_eq_log2, bind, Except.bind, pure,
      Except.pure]
  rw [getElem?_continuousNodes_line hl he, objectShape, hp]
  refine congrArg some (List.ext_getElem (by simp) fun k h₁ h₂ => ?_)
  simp only [List.length_map, List.length_set, List.length_range] at h₁
  -- off the axis the start vertex's side, on it the step `e + 1` from the low side
  by_cases hk : k = (a ^^^ b).log2
  · subst hk
    simp [Coord.eval, hlow]
  · simp [Ne.symm hk, hk, Coord.eval, Nat.mul_comm]

/-- The pattern of a face of the cube read from its axes: its side on the normal axis, the
interior coordinates on the `(u, v)` axes; checked on the six faces. -/
theorem objectShape_cubeFace : ∀ f : Nat, f < 6 → ∃ n < 3, ∃ u ∈ ([0, 1, 2] : List Int),
    ∃ v ∈ ([0, 1, 2] : List Int), (Hypercube.cube.faceAxes f).toOption = some (n, u, v) ∧
      objectShape .cube 2 f = (List.range 3).map fun k =>
        if k = n then .side (f % 2) else if (k : Int) = u then .inner 0 else .inner 1 := by
  decide

/-- **The interior of a face of the cube**: its side on the normal axis and the interior pair on
the face's `(u, v)` axes, `u` fastest. -/
theorem getElem?_continuousNodes_faceFrame {f : Nat} (hf : f < 6) :
    ∃ n u v, Hypercube.cube.faceAxes f = .ok (n, u, v) ∧ ∀ i < N - 1, ∀ j < N - 1,
      (continuousNodes .cube N)[8 + 12 * (N - 1) + f * (N - 1) ^ 2 + (j * (N - 1) + i)]? =
        some ((List.range 3).map fun k =>
          if k = n then f % 2 * N else if (k : Int) = u then i + 1 else j + 1) := by
  obtain ⟨n, -, u, -, v, -, hax, hshape⟩ := objectShape_cubeFace f hf
  refine ⟨n, u, v, ?_, fun i hi j hj => ?_⟩
  · revert hax
    cases Hypercube.cube.faceAxes f <;> simp [Except.toOption]
  rw [getElem?_continuousNodes_cubeFace hf
    (by rw [Nat.pow_two]; exact mul_add_lt_mul hj hi), hshape, List.map_map]
  refine congrArg some (List.map_congr_left fun k _ => ?_)
  simp only [Function.comp_apply, innerCoords, getD_interiorPairs_mul_add hi hj]
  split_ifs <;> rfl

end Placement

section Fill

variable {c : Hypercube} {N : Nat}

/-- **Every grid point is a node.** A point with some coordinate on a side lies on the object
whose pattern its sides make, at the dof its inside coordinates name; a point with every
coordinate inside lies in the interior of the cell. -/
theorem mem_continuousNodes_of_grid {x : List Nat} (hlen : x.length = c.dim)
    (hx : ∀ a ∈ x, a ≤ N) : x ∈ continuousNodes c N := by
  have hshape := gridShape_mem_shapesFrom (N := N) x 0
  rw [hlen] at hshape
  have heval : (gridShape N 0 x).map (Coord.eval N (insideCoords N x)) = x :=
    map_eval_gridShape x 0 [] rfl
  have hins : ∀ a ∈ insideCoords N x, 1 ≤ a ∧ a < N := by
    intro a ha
    simp only [insideCoords, List.mem_filter, decide_eq_true_eq] at ha
    have := hx a ha.1
    omega
  have hcount := countP_gridShape (N := N) x 0
  rcases shapesFrom_objectShape c _ hshape with hall | ⟨hκ, o, ho, hobj⟩
  · -- every coordinate inside: the interior of the cell, lexicographically
    have hlenIns : (insideCoords N x).length = x.length := by
      rw [← hcount, hall, hlen]
      simp [List.countP_map, Function.comp_def, Coord.isInner]
    have hxins : insideCoords N x = x := List.filter_sublist.eq_of_length hlenIns
    rw [hxins] at hins
    cases c with
    | interval =>
      obtain ⟨t, rfl⟩ := List.length_eq_one_iff.1 hlen
      have ht := hins t (by simp)
      have h := getElem?_continuousNodes_line (c := .interval) (N := N) (l := 0) (by decide)
        (show t - 1 < N - 1 by omega)
      have hs : objectShape .interval 1 0 = [.inner 0] := by decide
      rw [hs, List.map_singleton, Coord.eval, List.getD_cons_zero, Nat.sub_add_cancel ht.1] at h
      exact List.mem_of_getElem? h
    | square =>
      obtain ⟨u, v, rfl⟩ := List.length_eq_two.1 hlen
      have hu := hins u (by simp)
      have hv := hins v (by simp)
      have h := getElem?_continuousNodes_squareInterior (N := N) (show u - 1 < N - 1 by omega)
        (show v - 1 < N - 1 by omega)
      rw [Nat.sub_add_cancel hu.1, Nat.sub_add_cancel hv.1] at h
      exact List.mem_of_getElem? h
    | cube =>
      obtain ⟨i, j, k, rfl⟩ := List.length_eq_three.1 hlen
      have hi := hins i (by simp)
      have hj := hins j (by simp)
      have hk := hins k (by simp)
      have h := getElem?_continuousNodes_cubeInterior (N := N) (show i - 1 < N - 1 by omega)
        (show j - 1 < N - 1 by omega) (show k - 1 < N - 1 by omega)
      rw [Nat.sub_add_cancel hi.1, Nat.sub_add_cancel hj.1, Nat.sub_add_cancel hk.1] at h
      exact List.mem_of_getElem? h
  · -- some coordinate on a side: a dof of the object with this pattern
    rw [hcount] at hκ ho hobj
    have hκ2 : (insideCoords N x).length ≤ 2 := by
      cases c <;> simp only [Hypercube.dim] at hκ <;> omega
    obtain ⟨e, he, hcoords⟩ := exists_innerCoords hκ2 hins
    have h := getElem?_continuousNodes hκ ho he
    rw [hobj, hcoords, heval] at h
    exact List.mem_of_getElem? h

/-- **The nodes are exactly the grid points.** -/
theorem mem_continuousNodes {x : List Nat} :
    x ∈ continuousNodes c N ↔ x.length = c.dim ∧ ∀ a ∈ x, a ≤ N :=
  ⟨grid_of_mem_continuousNodes, fun h => mem_continuousNodes_of_grid h.1 h.2⟩

/-- **The nodes rearrange the grid**: as many as grid points, and every grid point among them. -/
theorem perm_gridPoints (hN : 1 ≤ N) : (continuousNodes c N).Perm (gridPoints N c.dim) := by
  have hsub : gridPoints N c.dim ⊆ continuousNodes c N := fun x hx =>
    mem_continuousNodes.2 (mem_gridPoints.1 hx)
  exact ((List.subperm_of_subset (nodup_gridPoints _) hsub).perm_of_length_le
    (by rw [length_continuousNodes hN, length_gridPoints])).symm

/-- No two dofs of a continuous element share a node. -/
theorem nodup_continuousNodes (hN : 1 ≤ N) : (continuousNodes c N).Nodup :=
  (perm_gridPoints hN).nodup_iff.2 (nodup_gridPoints _)

end Fill

section Layout

open FiniteElements.Numeric

/-- **A layout of counts is built** when the counts fit the cell, none is negative, there is a
component, and the cell's dofs, counted exactly and then wrapped to a machine word, are at least
one. -/
theorem DofLayout.exists_ofCounts?_eq_ok {c : Hypercube} {counts : List Int}
    {components degree : Int} (hlen : counts.length = c.dim + 1) (hnn : ∀ x ∈ counts, 0 ≤ x)
    (hcomp : 1 ≤ components)
    (hcell : 1 ≤ wrapWord (((List.range 4).map fun j =>
      (c.objectsPerCell.getD j 0 : Int) * counts.getD j 0).sum)) :
    ∃ fd, DofLayout.ofCounts? c.dim counts components degree = .ok fd := by
  have hneg : DofLayout.firstNegative counts = none := by
    simp only [DofLayout.firstNegative, List.find?_eq_none]
    intro p hp
    have := hnn p.1 (List.fst_mem_of_mem_zipIdx hp)
    simp only [decide_eq_true_eq, not_lt]
    exact this
  -- the offsets are accumulated word by word, which wraps the exact sum once
  have hchain : wrapWord (wrapWord (wrapWord (wrapWord (c.verticesPerCell * counts.getD 0 0) +
      c.linesPerCell * counts.getD 1 0) + c.quadsPerCell * counts.getD 2 0) +
      c.hexesPerCell * counts.getD 3 0) =
      wrapWord (((List.range 4).map fun j => (c.objectsPerCell.getD j 0 : Int) * counts.getD j 0).sum) := by
    simp [List.range_succ, wrapWord_add_wrapWord, Int.add_assoc, Hypercube.verticesPerCell,
      Hypercube.linesPerCell, Hypercube.quadsPerCell, Hypercube.hexesPerCell]
  unfold DofLayout.ofCounts?
  rw [Hypercube.ofDim?_dim]
  simp only [Except.mapError, bind, Except.bind, Int.toNat_natCast, hlen, bne_self_eq_false,
    Bool.false_eq_true, if_false, hneg, if_neg (show ¬ components < 1 by omega), hchain,
    if_neg (show ¬ wrapWord _ < 1 from not_lt.2 hcell)]
  exact ⟨_, rfl⟩

variable {c : Hypercube} {N : Nat}

/-- The counts of the continuous element are not negative when its dofs fit a machine word. -/
theorem continuousCounts_nonneg (hN : 1 ≤ N) (hfit : (N + 1) ^ c.dim < 2 ^ 63) :
    ∀ x ∈ continuousCounts c N, 0 ≤ x := by
  intro x hx
  obtain ⟨k, hk, rfl⟩ := List.mem_map.1 hx
  have hk : k ≤ c.dim := by simp at hk; omega
  have h := getD_continuousCounts hN hfit hk
  rw [continuousCounts, getD_map_range (by omega)] at h
  rw [h]
  exact Int.natCast_nonneg _

/-- The exact count of the continuous element's dofs, kind by kind, is `(N + 1)^d`. -/
theorem sum_continuousCounts (hN : 1 ≤ N) (hfit : (N + 1) ^ c.dim < 2 ^ 63) :
    ((List.range 4).map fun j => (c.objectsPerCell.getD j 0 : Int) *
      (continuousCounts c N).getD j 0).sum = (((N + 1) ^ c.dim : Nat) : Int) := by
  rw [← objectOffset_continuous (c := c) hN, objectOffset, Nat.cast_list_sum, List.map_map]
  refine congrArg List.sum (List.map_congr_left fun j _ => ?_)
  by_cases hj : j ≤ c.dim
  · rw [getD_continuousCounts hN hfit hj, Function.comp_apply, Nat.cast_mul]
  · have h0 := Hypercube.objectsPerCell_eq_zero (c := c) (show c.dim < j by omega)
    simp only [Function.comp_apply, h0, Nat.zero_mul, Nat.cast_zero, Int.zero_mul]

/-- What a continuous definition holds: the layout of its counts, a name, every dof non-additive
under the one-component mask, and the transfer and constraint matrices of its nodes. -/
theorem continuousDefinition_eq_ok {d : Definition} (h : continuousDefinition c N = .ok d) :
    DofLayout.ofCounts? c.dim (continuousCounts c N) 1 N = .ok d.layout ∧ d.name ≠ "" ∧
      d.additive = List.replicate d.layout.dofsPerCell.toNat false ∧
      d.masks = List.replicate d.layout.dofsPerCell.toNat ⟨[true]⟩ ∧
      d.prolongation = continuousProlongation c N (continuousNodes c N) ∧
      d.restriction = continuousRestriction c N (continuousNodes c N) ∧
      d.constraints = continuousConstraints c N := by
  unfold continuousDefinition at h
  simp only [bind_eq_ok, mapError_eq_ok] at h
  obtain ⟨fd, hfd, -, -, h⟩ := h
  cases h
  refine ⟨hfd, fun hname => ?_, rfl, rfl, rfl, rfl, rfl⟩
  have := congrArg String.length hname
  simp at this

/-- **The layout of the continuous element.** With its `(N + 1)^d` dofs fitting a machine word,
the counts `(N - 1)^k` give a layout numbering the dofs kind by kind, with exactly `(N + 1)^d`
dofs in the cell. -/
theorem continuousLayout (hN : 1 ≤ N) (hfit : (N + 1) ^ c.dim < 2 ^ 63) :
    ∃ fd, DofLayout.ofCounts? c.dim (continuousCounts c N) 1 N = .ok fd ∧ fd.Wf c ∧
      (∀ k ≤ c.dim, fd.countOf k = (((N - 1) ^ k : Nat) : Int)) ∧
      (∀ k < 4, fd.firstOf k =
        (objectOffset (c.objectsPerCell.getD · 0) (fun k => (N - 1) ^ k) k : Int)) ∧
      fd.dofsPerCell = (((N + 1) ^ c.dim : Nat) : Int) := by
  have hcell : 1 ≤ wrapWord (((List.range 4).map fun j =>
      (c.objectsPerCell.getD j 0 : Int) * (continuousCounts c N).getD j 0).sum) := by
    rw [sum_continuousCounts hN hfit, wrapWord_eq_self.2 ⟨by omega, by exact_mod_cast hfit⟩]
    exact_mod_cast Nat.one_le_pow _ _ (by omega)
  obtain ⟨fd, hfd⟩ : ∃ fd, DofLayout.ofCounts? c.dim (continuousCounts c N) 1 N = .ok fd :=
    DofLayout.exists_ofCounts?_eq_ok (by simp [continuousCounts])
      (continuousCounts_nonneg hN hfit) le_rfl hcell
  obtain ⟨c', hw, hdim, -, hcount, -⟩ := DofLayout.wf_of_ofCounts? hfd
  have hc' : c' = c := by
    have := hw.cell
    rw [hdim, Hypercube.ofDim?_dim, Except.ok.injEq] at this
    exact this.symm
  subst hc'
  have hcnt : ∀ k ≤ c'.dim, fd.countOf k = (((N - 1) ^ k : Nat) : Int) := fun k hk => by
    rw [hcount, getD_continuousCounts hN hfit hk]
  have hpre := cellPrefix_continuous hw.count_nonneg hcnt
  obtain ⟨hfirst, hcells, -, -⟩ :=
    hw.exact (by rw [hpre, objectOffset_continuous hN]; exact_mod_cast hfit)
  refine ⟨fd, hfd, hw, hcnt, fun k hk => ?_, ?_⟩
  · rw [hfirst k hk, hpre]
  · rw [hcells, hpre, objectOffset_continuous hN]

/-- The transfer matrices of the continuous element, square in its `(N + 1)^d` nodes, are
allocated when their entries fit. -/
theorem zeros_continuousNodes (hN : 1 ≤ N) (hroom : ((N + 1) ^ c.dim) ^ 2 ≤ 2 ^ 45) :
    ∃ Z, liftMatrix
      (Dense.Matrix.zeros (continuousNodes c N).length (continuousNodes c N).length) = .ok Z := by
  have hpos : (0 : Int) < ((N + 1) ^ c.dim : Nat) := by exact_mod_cast Nat.pow_pos (by omega)
  have hsq : (((N + 1) ^ c.dim : Nat) : Int) * ((N + 1) ^ c.dim : Nat) ≤ 2 ^ 45 := by
    rw [← Nat.cast_mul, ← Nat.pow_two]
    exact_mod_cast hroom
  rw [length_continuousNodes hN, Dense.Matrix.zeros_of_pos hpos hpos hsq]
  exact ⟨_, rfl⟩

/-- A count whose square fits the room of an allocation fits a machine word. -/
theorem fits_of_room {n : Nat} (hroom : n ^ 2 ≤ 2 ^ 45) : n < 2 ^ 63 := by
  have := Nat.le_self_pow (by decide : 2 ≠ 0) n
  omega

/-- **The continuous element's definition is built** when its transfer matrices fit: on the layout
of its counts, as `continuousLayout` describes it. -/
theorem continuousDefinition_layout (hN : 1 ≤ N) (hroom : ((N + 1) ^ c.dim) ^ 2 ≤ 2 ^ 45) :
    ∃ d, continuousDefinition c N = .ok d ∧ d.layout.Wf c ∧
      (∀ k ≤ c.dim, d.layout.countOf k = (((N - 1) ^ k : Nat) : Int)) ∧
      (∀ k < 4, d.layout.firstOf k =
        (objectOffset (c.objectsPerCell.getD · 0) (fun k => (N - 1) ^ k) k : Int)) ∧
      d.layout.dofsPerCell = (((N + 1) ^ c.dim : Nat) : Int) := by
  obtain ⟨fd, hfd, hw, hcnt, hfirst, hcells⟩ := continuousLayout hN (fits_of_room hroom)
  obtain ⟨Z, hZ⟩ := zeros_continuousNodes (c := c) hN hroom
  obtain ⟨d, hd⟩ : ∃ d, continuousDefinition c N = .ok d := by
    unfold continuousDefinition
    exact ⟨_, bind_eq_ok.2 ⟨fd, mapError_eq_ok.2 hfd, bind_eq_ok.2 ⟨Z, hZ, rfl⟩⟩⟩
  obtain rfl : d.layout = fd := Except.ok.inj ((continuousDefinition_eq_ok hd).1.symm.trans hfd)
  exact ⟨d, hd, hw, hcnt, hfirst, hcells⟩

/-- **The continuous element's definition is refused** where its transfer matrices hold more than
`2^45` entries, counted without a wrap: the allocation of the first one stops the call. -/
theorem continuousDefinition_eq_error (hN : 1 ≤ N) (hbig : 2 ^ 45 < ((N + 1) ^ c.dim) ^ 2)
    (hwrap : ((N + 1) ^ c.dim) ^ 2 < 2 ^ 63) :
    continuousDefinition c N = .error (.aborted (.matrix (.fault .negativeLength))) := by
  have hfit : (N + 1) ^ c.dim < 2 ^ 63 :=
    lt_of_le_of_lt (Nat.le_self_pow (by decide : 2 ≠ 0) _) hwrap
  obtain ⟨fd, hfd, -⟩ := continuousLayout hN hfit
  have hzeros : liftMatrix (Dense.Matrix.zeros (continuousNodes c N).length
      (continuousNodes c N).length) = (.error (.aborted (.matrix (.fault .negativeLength))) :
        Outcome Dense.Matrix) := by
    rw [length_continuousNodes hN, Dense.Matrix.zeros_of_room_lt (r := (N + 1) ^ c.dim)
      (c := (N + 1) ^ c.dim) (by rw [← Nat.pow_two]; exact hbig)
      (by rw [← Nat.pow_two]; exact hwrap)]
    rfl
  unfold continuousDefinition
  exact bind_eq_error.2 (.inr ⟨fd, mapError_eq_ok.2 hfd, bind_eq_error.2 (.inl hzeros)⟩)

/-- The layout of every continuous definition the family returns, where its dofs fit a machine
word. -/
theorem layout_of_continuousDefinition (hN : 1 ≤ N) (hfit : (N + 1) ^ c.dim < 2 ^ 63)
    {d : Definition} (hd : continuousDefinition c N = .ok d) :
    d.layout.Wf c ∧ (∀ k ≤ c.dim, d.layout.countOf k = (((N - 1) ^ k : Nat) : Int)) ∧
      d.layout.dofsPerCell = (((N + 1) ^ c.dim : Nat) : Int) ∧
      d.layout.cellPrefix c 4 < 2 ^ 63 := by
  obtain ⟨fd, hfd, hw, hcnt, -, hcells⟩ := continuousLayout hN hfit
  obtain rfl : d.layout = fd := Except.ok.inj ((continuousDefinition_eq_ok hd).1.symm.trans hfd)
  refine ⟨hw, hcnt, hcells, ?_⟩
  rw [cellPrefix_continuous hw.count_nonneg hcnt, objectOffset_continuous hN]
  exact_mod_cast hfit

/-- The per-object counts of the continuous element are the powers `(N - 1)^k` as machine
words. -/
theorem getD_continuousCounts_wrap (hN : 1 ≤ N) {k : Nat} (hk : k ≤ c.dim) :
    (continuousCounts c N).getD k 0 = wrapWord (((N - 1) ^ k : Nat) : Int) := by
  rw [continuousCounts, getD_map_range (by omega), Nat.cast_pow, Nat.cast_sub hN]
  rfl

/-- **The dofs of the cell are the nodes counted in a machine word**: whenever the continuous
definition is built, its cell has `(N + 1)^d` dofs wrapped to a signed 64-bit word, exactly
`(N + 1)^d` when that fits. -/
theorem continuousDefinition_dofsPerCell (hN : 1 ≤ N) {d : Definition}
    (h : continuousDefinition c N = .ok d) :
    d.layout.dofsPerCell = wrapWord (((N + 1) ^ c.dim : Nat) : Int) := by
  obtain ⟨c', hw, hdim, -, hcount, -⟩ :=
    DofLayout.wf_of_ofCounts? (continuousDefinition_eq_ok h).1
  have hc' : c' = c := by
    have := hw.cell
    rw [hdim, Hypercube.ofDim?_dim, Except.ok.injEq] at this
    exact this.symm
  subst hc'
  have hcnt (k : Nat) (hk : k ≤ c'.dim) :
      d.layout.countOf k = wrapWord (((N - 1) ^ k : Nat) : Int) := by
    rw [hcount, getD_continuousCounts_wrap hN hk]
  -- kind by kind, each count is its power modulo `2^64`, so the exact offsets agree with the
  -- sum of the powers, which is `(N + 1)^d`
  have hkinds (k : Nat) : d.layout.cellPrefix c' k ≡
      (((objectOffset (c'.objectsPerCell.getD · 0) (fun k => (N - 1) ^ k) k : Nat)) : Int)
        [ZMOD 2 ^ 64] := by
    induction k with
    | zero => rfl
    | succ k ih =>
      rw [DofLayout.cellPrefix_succ, objectOffset_succ, Nat.cast_add, Nat.cast_mul]
      by_cases hk : k ≤ c'.dim
      · refine ih.add (Int.ModEq.mul_left _ ?_)
        rw [hcnt k hk]
        exact wrapWord_emod _
      · rw [Hypercube.objectsPerCell_eq_zero (show c'.dim < k by omega)]
        simpa using ih
  rw [hw.dofsPerCell_eq, ← objectOffset_continuous hN]
  exact wrapWord_congr (hkinds 4)

/-- The first dof of each kind in the continuous element's layout: the vertices, then `N - 1`
per line, then `(N - 1)^2` per face. -/
theorem continuousLayout_offsets (hN : 1 ≤ N) (hfit : (N + 1) ^ c.dim < 2 ^ 63) :
    ∃ fd, DofLayout.ofCounts? c.dim (continuousCounts c N) 1 N = .ok fd ∧
      fd.dofsPerCell = (((N + 1) ^ c.dim : Nat) : Int) ∧
      fd.firstLineIndex = (c.verticesPerCell : Int) ∧
      fd.firstQuadIndex = ((c.verticesPerCell + c.linesPerCell * (N - 1) : Nat) : Int) ∧
      fd.firstHexIndex = ((c.verticesPerCell + c.linesPerCell * (N - 1) +
        c.quadsPerCell * (N - 1) ^ 2 : Nat) : Int) := by
  obtain ⟨fd, hfd, -, -, hfirst, hcells⟩ := continuousLayout hN hfit
  refine ⟨fd, hfd, hcells, ?_, ?_, ?_⟩
  · simpa [DofLayout.firstOf, objectOffset, Hypercube.verticesPerCell] using hfirst 1 (by decide)
  · simpa [DofLayout.firstOf, objectOffset, List.range_succ, Hypercube.verticesPerCell,
      Hypercube.linesPerCell] using hfirst 2 (by decide)
  · simpa [DofLayout.firstOf, objectOffset, List.range_succ, Hypercube.verticesPerCell,
      Hypercube.linesPerCell, Hypercube.quadsPerCell, Int.add_assoc] using hfirst 3 (by decide)

/-- The layout a continuous definition is built on is the layout of its counts, and the definition
is built when its transfer matrices fit. -/
theorem continuousDefinition_of_layout (hN : 1 ≤ N) {fd : DofLayout}
    (hfd : DofLayout.ofCounts? c.dim (continuousCounts c N) 1 N = .ok fd) :
    (∀ d, continuousDefinition c N = .ok d → d.layout = fd) ∧
      (((N + 1) ^ c.dim) ^ 2 ≤ 2 ^ 45 → ∃ d, continuousDefinition c N = .ok d) :=
  ⟨fun _ hd => Except.ok.inj ((continuousDefinition_eq_ok hd).1.symm.trans hfd),
    fun hroom => (continuousDefinition_layout hN hroom).imp fun _ h => h.1⟩

end Layout

/-- **The nodes of the continuous element fill the grid, object by object.** For degree `N ≥ 1`
on each reference cell the node list has `(N + 1)^d` entries, no point twice, and its points are
exactly the grid `{0, …, N}^d`. Vertex `v` sits at `N` times its bits, the `e`-th dof of line `l`
at the line's start vertex moved `e + 1` along the line's axis, and the interiors of the square,
of each face of the cube (at its side on the normal axis) and of the cube are numbered
lexicographically, the first axis of the frame fastest. The layout numbers the same dofs: its cell
count is `(N + 1)^d` as a machine word, and exactly `(N + 1)^d` with the offsets of the object
kinds used here when that fits a word; that layout is the one every definition of the family is
built on, and the definition is built when its `((N + 1)^d)^2`-entry transfer matrices fit. -/
theorem continuousNodes_grid {N : Nat} (hN : 1 ≤ N) :
    (∀ c : Hypercube,
      (continuousNodes c N).length = (N + 1) ^ c.dim ∧
      (continuousNodes c N).Nodup ∧
      (∀ x, x ∈ continuousNodes c N ↔ x.length = c.dim ∧ ∀ a ∈ x, a ≤ N) ∧
      (∀ v < c.verticesPerCell,
        (continuousNodes c N)[v]? = some ((List.range c.dim).map fun k => N * (v / 2 ^ k % 2))) ∧
      (∀ l < c.linesPerCell, ∃ a b ax, c.lineVertices l = .ok (a, b) ∧ c.lineAxis l = .ok ax ∧
        ∀ e < N - 1, (continuousNodes c N)[c.verticesPerCell + l * (N - 1) + e]? =
          some ((List.range c.dim).map fun k =>
            N * (a / 2 ^ k % 2) + if k = ax then e + 1 else 0)) ∧
      (∀ d, continuousDefinition c N = .ok d →
        d.layout.dofsPerCell = Numeric.wrapWord (((N + 1) ^ c.dim : Nat) : Int)) ∧
      ((N + 1) ^ c.dim < 2 ^ 63 → ∃ fd, DofLayout.ofCounts? c.dim (continuousCounts c N) 1 N = .ok fd ∧
        fd.dofsPerCell = (((N + 1) ^ c.dim : Nat) : Int) ∧
        fd.firstLineIndex = (c.verticesPerCell : Int) ∧
        fd.firstQuadIndex = ((c.verticesPerCell + c.linesPerCell * (N - 1) : Nat) : Int) ∧
        fd.firstHexIndex = ((c.verticesPerCell + c.linesPerCell * (N - 1) +
          c.quadsPerCell * (N - 1) ^ 2 : Nat) : Int) ∧
        (∀ d, continuousDefinition c N = .ok d → d.layout = fd) ∧
        (((N + 1) ^ c.dim) ^ 2 ≤ 2 ^ 45 → ∃ d, continuousDefinition c N = .ok d))) ∧
    (∀ i < N - 1, ∀ j < N - 1,
      (continuousNodes .square N)[4 + 4 * (N - 1) + (j * (N - 1) + i)]? = some [i + 1, j + 1]) ∧
    (∀ f : Nat, f < 6 → ∃ n u v, Hypercube.cube.faceAxes f = .ok (n, u, v) ∧
      ∀ i < N - 1, ∀ j < N - 1,
        (continuousNodes .cube N)[8 + 12 * (N - 1) + f * (N - 1) ^ 2 + (j * (N - 1) + i)]? =
          some ((List.range 3).map fun k =>
            if k = n then f % 2 * N else if (k : Int) = u then i + 1 else j + 1)) ∧
    (∀ i < N - 1, ∀ j < N - 1, ∀ k < N - 1,
      (continuousNodes .cube N)[8 + 12 * (N - 1) + 6 * (N - 1) ^ 2 +
        (k * (N - 1) ^ 2 + (j * (N - 1) + i))]? = some [i + 1, j + 1, k + 1]) :=
  ⟨fun _ => ⟨length_continuousNodes hN, nodup_continuousNodes hN, fun _ => mem_continuousNodes,
      fun _ hv => getElem?_continuousNodes_vertexBits hv,
      fun _ hl => getElem?_continuousNodes_lineStep hl,
      fun _ hd => continuousDefinition_dofsPerCell hN hd,
      fun hfit => (continuousLayout_offsets hN hfit).imp fun _ h =>
        ⟨h.1, h.2.1, h.2.2.1, h.2.2.2.1, h.2.2.2.2, continuousDefinition_of_layout hN h.1⟩⟩,
    fun _ hi _ hj => getElem?_continuousNodes_squareInterior hi hj,
    fun _ hf => getElem?_continuousNodes_faceFrame hf,
    fun _ hi _ hj _ hk => getElem?_continuousNodes_cubeInterior hi hj hk⟩

/-- The biquadratic and triquadratic nodes: degree two meets the hypothesis. -/
theorem quadraticNodes_grid : 1 ≤ 2 ∧
    (∀ c : Hypercube,
      (continuousNodes c 2).length = (2 + 1) ^ c.dim ∧
      (continuousNodes c 2).Nodup ∧
      (∀ x, x ∈ continuousNodes c 2 ↔ x.length = c.dim ∧ ∀ a ∈ x, a ≤ 2) ∧
      (∀ v < c.verticesPerCell,
        (continuousNodes c 2)[v]? = some ((List.range c.dim).map fun k => 2 * (v / 2 ^ k % 2))) ∧
      (∀ l < c.linesPerCell, ∃ a b ax, c.lineVertices l = .ok (a, b) ∧ c.lineAxis l = .ok ax ∧
        ∀ e < 2 - 1, (continuousNodes c 2)[c.verticesPerCell + l * (2 - 1) + e]? =
          some ((List.range c.dim).map fun k =>
            2 * (a / 2 ^ k % 2) + if k = ax then e + 1 else 0)) ∧
      (∀ d, continuousDefinition c 2 = .ok d →
        d.layout.dofsPerCell = Numeric.wrapWord (((2 + 1) ^ c.dim : Nat) : Int)) ∧
      ((2 + 1) ^ c.dim < 2 ^ 63 → ∃ fd, DofLayout.ofCounts? c.dim (continuousCounts c 2) 1 2 = .ok fd ∧
        fd.dofsPerCell = (((2 + 1) ^ c.dim : Nat) : Int) ∧
        fd.firstLineIndex = (c.verticesPerCell : Int) ∧
        fd.firstQuadIndex = ((c.verticesPerCell + c.linesPerCell * (2 - 1) : Nat) : Int) ∧
        fd.firstHexIndex = ((c.verticesPerCell + c.linesPerCell * (2 - 1) +
          c.quadsPerCell * (2 - 1) ^ 2 : Nat) : Int) ∧
        (∀ d, continuousDefinition c 2 = .ok d → d.layout = fd) ∧
        (((2 + 1) ^ c.dim) ^ 2 ≤ 2 ^ 45 → ∃ d, continuousDefinition c 2 = .ok d))) ∧
    (∀ i < 2 - 1, ∀ j < 2 - 1,
      (continuousNodes .square 2)[4 + 4 * (2 - 1) + (j * (2 - 1) + i)]? = some [i + 1, j + 1]) ∧
    (∀ f : Nat, f < 6 → ∃ n u v, Hypercube.cube.faceAxes f = .ok (n, u, v) ∧
      ∀ i < 2 - 1, ∀ j < 2 - 1,
        (continuousNodes .cube 2)[8 + 12 * (2 - 1) + f * (2 - 1) ^ 2 + (j * (2 - 1) + i)]? =
          some ((List.range 3).map fun k =>
            if k = n then f % 2 * 2 else if (k : Int) = u then i + 1 else j + 1)) ∧
    (∀ i < 2 - 1, ∀ j < 2 - 1, ∀ k < 2 - 1,
      (continuousNodes .cube 2)[8 + 12 * (2 - 1) + 6 * (2 - 1) ^ 2 +
        (k * (2 - 1) ^ 2 + (j * (2 - 1) + i))]? = some [i + 1, j + 1, k + 1]) :=
  ⟨by decide, continuousNodes_grid (N := 2) (by decide)⟩

end FiniteElements.Family
