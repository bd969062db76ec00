import FiniteElements.Family.Continuous
import FiniteElements.Proofs.Cell.FaceFrame
import FiniteElements.Proofs.Element.FaceDofs
import FiniteElements.Proofs.Layout.Enumeration
import FiniteElements.Proofs.Layout.Counts

/-!
# The nodes of continuous elements, face by face

The node of a dof of the continuous element of degree `N` is a multi-index in units of `1/N`.
Each coordinate of it is either fixed by the object the dof lies on, `0` or `N` on a side of the
cell, or runs inside that object: along a line's axis, or along the two tangent axes of a face.
So the nodes on object `o` of kind `κ` follow one pattern, `objectShape c κ o`, a list of
coordinates `Coord.side b` and `Coord.inner a`, evaluated at the dof's coordinates inside its
object (`innerCoords`). The nodes are listed object by object in the order of the dofs
(`getElem?_continuousNodes`).

Every object of a face is an object of the cell (`Hypercube.faceObject`), and its pattern is the
pattern of the same object of the face's own reference cell placed on the face
(`objectShape_faceObject`): the face's side on the normal axis, the face's pattern on the tangent
axes in the face's `(u, v)` frame. The reference cells have few faces and objects, so this is
checked by evaluation, once for all degrees. Hence the node of the `e`-th dof on any face object
is the same frame node placed on the face (`continuousNodes_faceObject`).

## Main definitions

* `FiniteElements.Family.Coord`, `FiniteElements.Family.objectShape`,
  `FiniteElements.Family.frameShape`, `FiniteElements.Family.innerCoords`

## Main results

* `FiniteElements.Family.getElem?_continuousNodes`
* `FiniteElements.Family.objectShape_faceObject`, `FiniteElements.Family.continuousNodes_faceObject`
* `FiniteElements.Family.getD_continuousCounts`, `FiniteElements.Family.objectOffset_continuous`
-/

namespace FiniteElements.Cell

set_option autoImplicit false

/-- The highest set bit is the base-two logarithm. -/
theorem Hypercube.highBit_eq_log2 (n : Nat) : Hypercube.highBit n = n.log2 := by
  induction n using Nat.strongRecOn with
  | ind n ih =>
    rw [Hypercube.highBit, Nat.log2_def]
    by_cases hn : n ≤ 1
    · rw [if_pos hn, if_neg (by omega)]
    · rw [if_neg hn, if_pos (by omega), ih (n / 2) (by omega)]

theorem Hypercube.length_lines (c : Hypercube) : c.lines.length = c.linesPerCell := by
  cases c <;> rfl

end FiniteElements.Cell

namespace FiniteElements.Family

set_option autoImplicit false

open FiniteElements.Cell FiniteElements.Element

/-- A coordinate of the nodes on one object, in units of `1/N`: `b · N` on a side of the cell, or
coordinate `a` of the node inside its object. -/
inductive Coord where
  | side (b : Nat)
  | inner (a : Nat)
deriving DecidableEq

/-- The value of a coordinate at degree `N`, for a node with coordinates `xs` inside its object. -/
def Coord.eval (N : Nat) (xs : List Nat) : Coord → Nat
  | .side b => b * N
  | .inner a => xs.getD a 0

/-- The coordinates of the nodes on object `o` of kind `κ ≤ 2` of a cell: a vertex lies on sides
only, the nodes of a line run along its axis, those of a face of the cube along its tangent axes,
and those inside the square along both axes. -/
def objectShape (c : Hypercube) (κ o : Nat) : List Coord :=
  match κ, c with
  | 0, c => (List.range c.dim).map fun k => .side (o / Nat.pow 2 k % 2)
  | 1, c =>
    let (a, b) := c.lines.getD o (0, 0)
    ((List.range c.dim).map fun k => Coord.side (a / Nat.pow 2 k % 2)).set (a ^^^ b).log2 (.inner 0)
  | _, .cube =>
    let tangents := (List.range 3).filter (· != o / 2)
    (((List.replicate 3 (Coord.side 0)).set (o / 2) (.side (o % 2))).set (tangents.getD 0 0)
      (.inner 0)).set (tangents.getD 1 0) (.inner 1)
  | _, _ => [.inner 0, .inner 1]

/-- The coordinates of the nodes on object `o` of kind `κ` of a face, in the face's frame: those of
the same object of the face's reference cell, none on the point that a face of the interval is. -/
def frameShape (c : Hypercube) (κ o : Nat) : List Coord :=
  match c with
  | .interval => []
  | .square => objectShape .interval κ o
  | .cube => objectShape .square κ o

/-- The coordinates inside its object of the `e`-th dof on an object of kind `κ`: none on a
vertex, the step along a line, the interior pair on a face. -/
def innerCoords (N κ e : Nat) : List Nat :=
  match κ with
  | 0 => []
  | 1 => [e + 1]
  | _ => let p := (interiorPairs N).getD e (0, 0); [p.1, p.2]

/-- **Face objects keep their pattern.** On every face, each face object's nodes follow the
pattern of the face's reference cell, placed on the face; checked on the three reference cells. -/
theorem objectShape_faceObject (c : Hypercube) :
    ∀ κ < c.dim, ∀ f < c.facesPerCell, ∀ o < c.objectsPerFace.getD κ 0,
      ∀ v ∈ (c.faceObject κ f o).toOption,
        objectShape c κ v = c.onFace f (.side (f % 2)) (frameShape c κ o) (.side 0) ∧
          (frameShape c κ o).length = c.dim - 1 := by
  cases c <;> decide

section Indexing

private theorem flatMap_eq_flatMap_range {α β : Type} [Inhabited α] (xs : List α)
    (g : α → List β) : xs.flatMap g = (List.range xs.length).flatMap fun i => g (xs.getD i default) := by
  rw [List.flatMap_def, List.flatMap_def, map_range_getD xs g]

theorem sum_range_const (o n : Nat) : ((List.range o).map fun _ => n).sum = o * n := by
  simp [List.sum_replicate]

theorem length_interiorPairs (N : Nat) : (interiorPairs N).length = (N - 1) ^ 2 := by
  simp [interiorPairs, List.length_flatMap, Nat.pow_two]

theorem getElem?_interiorPairs {N e : Nat} (he : e < (N - 1) ^ 2) :
    (interiorPairs N)[e]? = some ((interiorPairs N).getD e (0, 0)) := by
  rw [List.getD_eq_getElem?_getD, List.getElem?_eq_getElem (by rw [length_interiorPairs]; exact he),
    Option.getD_some]

variable (c : Hypercube) (N : Nat)

theorem length_vertexNodes :
    ((List.range c.verticesPerCell).map (vertexNode c N)).length = c.verticesPerCell := by
  simp

theorem length_lineNodes :
    (c.lines.flatMap fun (p : Nat × Nat) => (List.range (N - 1)).map fun j =>
      (vertexNode c N p.1).set (Hypercube.highBit (p.1 ^^^ p.2)) (j + 1)).length =
      c.linesPerCell * (N - 1) := by
  simp [List.length_flatMap, ← Hypercube.length_lines]

variable {c N}

theorem getElem?_continuousNodes_vertex {v : Nat} (hv : v < c.verticesPerCell) :
    (continuousNodes c N)[v]? = some ((objectShape c 0 v).map (Coord.eval N [])) := by
  unfold continuousNodes
  dsimp only
  rw [List.append_assoc, List.getElem?_append_left (by simpa using hv), List.getElem?_map,
    List.getElem?_range hv]
  simp [vertexNode, objectShape, Coord.eval]

theorem getElem?_continuousNodes_line {l e : Nat} (hl : l < c.linesPerCell) (he : e < N - 1) :
    (continuousNodes c N)[c.verticesPerCell + l * (N - 1) + e]? =
      some ((objectShape c 1 l).map (Coord.eval N [e + 1])) := by
  unfold continuousNodes
  dsimp only
  have hlen := mul_add_lt_mul hl he
  rw [List.append_assoc, List.getElem?_append_right (by rw [length_vertexNodes]; omega),
    length_vertexNodes, show c.verticesPerCell + l * (N - 1) + e - c.verticesPerCell =
      l * (N - 1) + e by omega,
    List.getElem?_append_left (by rw [length_lineNodes]; omega),
    flatMap_eq_flatMap_range, Hypercube.length_lines, ← sum_range_const l (N - 1),
    getElem?_flatMap_range_of_length (n := fun _ => N - 1) (by simp) hl he]
  -- the nodes of one line: its start vertex, stepped along the line's axis
  have hdef : (default : Nat × Nat) = (0, 0) := rfl
  rw [hdef, objectShape]
  generalize c.lines.getD l (0, 0) = p
  obtain ⟨a, b⟩ := p
  simp [vertexNode, Coord.eval, List.map_set, Hypercube.highBit_eq_log2, List.getElem?_range he,
    Function.comp_def]

theorem getElem?_continuousNodes_cubeFace {f e : Nat} (hf : f < 6) (he : e < (N - 1) ^ 2) :
    (continuousNodes .cube N)[8 + 12 * (N - 1) + f * (N - 1) ^ 2 + e]? =
      some ((objectShape .cube 2 f).map (Coord.eval N (innerCoords N 2 e))) := by
  unfold continuousNodes
  dsimp only
  have hpre : ((List.range Hypercube.cube.verticesPerCell).map (vertexNode .cube N) ++
      Hypercube.cube.lines.flatMap fun (p : Nat × Nat) => (List.range (N - 1)).map fun j =>
        (vertexNode .cube N p.1).set (Hypercube.highBit (p.1 ^^^ p.2)) (j + 1)).length =
      8 + 12 * (N - 1) := by
    rw [List.length_append, length_vertexNodes, length_lineNodes]
    rfl
  have hlt := mul_add_lt_mul hf he
  rw [List.getElem?_append_right (by rw [hpre]; omega), hpre,
    show 8 + 12 * (N - 1) + f * (N - 1) ^ 2 + e - (8 + 12 * (N - 1)) = f * (N - 1) ^ 2 + e by omega,
    List.getElem?_append_left (by simp [List.length_flatMap, length_interiorPairs]; omega),
    ← sum_range_const f ((N - 1) ^ 2),
    getElem?_flatMap_range_of_length (n := fun _ => (N - 1) ^ 2) (by simp [length_interiorPairs])
      hf he,
    List.getElem?_map, getElem?_interiorPairs he]
  -- a node of a face: the face's side on its normal axis, the interior pair on its tangent axes
  simp [objectShape, innerCoords, Coord.eval, List.map_set]

/-- **The nodes object by object.** The `e`-th dof on object `o` of kind `κ`, after the dofs of
the earlier kinds and objects, has the node of the object's pattern at its inner coordinates. -/
theorem getElem?_continuousNodes {κ o e : Nat} (hκ : κ < c.dim)
    (ho : o < c.objectsPerCell.getD κ 0) (he : e < (N - 1) ^ κ) :
    (continuousNodes c N)[objectOffset (c.objectsPerCell.getD · 0) (fun k => (N - 1) ^ k) κ +
      o * (N - 1) ^ κ + e]? = some ((objectShape c κ o).map (Coord.eval N (innerCoords N κ e))) := by
  match κ, c, hκ with
  | 0, c, _ =>
    have he0 : e = 0 := by simpa using he
    subst he0
    simpa [objectOffset, innerCoords] using getElem?_continuousNodes_vertex (N := N) ho
  | 1, c, _ =>
    have hoff : objectOffset (c.objectsPerCell.getD · 0) (fun k => (N - 1) ^ k) 1 =
        c.verticesPerCell := by simp [objectOffset, Hypercube.verticesPerCell]
    rw [hoff, Nat.pow_one]
    exact getElem?_continuousNodes_line ho (by simpa using he)
  | 2, .cube, _ =>
    have hoff : objectOffset (Hypercube.cube.objectsPerCell.getD · 0) (fun k => (N - 1) ^ k) 2 =
        8 + 12 * (N - 1) := by simp [objectOffset, List.range_succ, Hypercube.objectsPerCell]
    rw [hoff]
    exact getElem?_continuousNodes_cubeFace ho he

/-- **A face's dofs sit at the frame nodes placed on it.** The node of the `e`-th dof on the cell
object that object `o` of face `f` is, is the face's side on the normal axis and the node of the
same object of the face's reference cell on the tangent axes. -/
theorem continuousNodes_faceObject {κ f o v e : Nat} (hκ : κ < c.dim) (hf : f < c.facesPerCell)
    (ho : o < c.objectsPerFace.getD κ 0) (he : e < (N - 1) ^ κ) (hv : c.faceObject κ f o = .ok v) :
    (continuousNodes c N)[objectOffset (c.objectsPerCell.getD · 0) (fun k => (N - 1) ^ k) κ +
      v * (N - 1) ^ κ + e]? =
      some (c.onFace f (f % 2 * N) ((frameShape c κ o).map (Coord.eval N (innerCoords N κ e))) 0) := by
  obtain ⟨v', hv', hobj⟩ := c.exists_faceObject hκ hf ho
  rw [hv, Except.ok.injEq] at hobj
  subst hobj
  have hshape := (objectShape_faceObject c κ hκ f hf o ho v (by simp [hv, Except.toOption])).1
  rw [getElem?_continuousNodes hκ hv' he, hshape, Hypercube.map_onFace]
  simp [Coord.eval]

end Indexing

section Counts

variable {c : Hypercube} {N : Nat}

/-- With `(N+1)^d` dofs fitting a machine word, the count of each object kind is exact. -/
theorem getD_continuousCounts (hN : 1 ≤ N) (hfit : (N + 1) ^ c.dim < 2 ^ 63) {k : Nat}
    (hk : k ≤ c.dim) : (continuousCounts c N).getD k 0 = (((N - 1) ^ k : Nat) : Int) := by
  unfold continuousCounts
  rw [List.getD_eq_getElem?_getD, List.getElem?_map, List.getElem?_range (by omega),
    Option.map_some, Option.getD_some]
  have hcast : Int.pow ((N : Int) - 1) k = (((N - 1) ^ k : Nat) : Int) := by
    rw [Nat.cast_pow, Nat.cast_sub hN]
    rfl
  have hle : (N - 1) ^ k ≤ (N + 1) ^ c.dim :=
    (Nat.pow_le_pow_left (by omega) k).trans (Nat.pow_le_pow_right (by omega) hk)
  rw [hcast, Numeric.wrapWord_eq_self.2 ⟨by omega, by omega⟩]

/-- **The dofs of the continuous element**: `(N+1)^d`, counted object kind by object kind. -/
theorem objectOffset_continuous (hN : 1 ≤ N) :
    objectOffset (c.objectsPerCell.getD · 0) (fun k => (N - 1) ^ k) 4 = (N + 1) ^ c.dim := by
  obtain ⟨m, rfl⟩ : ∃ m, N = m + 1 := ⟨N - 1, by omega⟩
  cases c <;> simp [objectOffset, List.range_succ, Hypercube.objectsPerCell, Hypercube.dim] <;> ring

end Counts

end FiniteElements.Family
