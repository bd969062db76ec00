import FiniteElements.Fault

/-!
# Reference hypercubes

The reference cell of dimension `d ∈ {1, 2, 3}` is `[0,1]^d`, refined into `2^d` children. Its
objects are numbered lexicographically with `x` fastest:

* vertex `v` has coordinate `k` equal to bit `k` of `v`;
* the lines of the square are `x = 0`, `x = 1`, `y = 0`, `y = 1`; those of the cube are the four
  of the square on `z = 0`, the same four on `z = 1`, then the four parallel to `z` starting at
  vertices `0 … 3`; every line points along the positive direction of its axis;
* the faces of the cube are `x = 0`, `x = 1`, `y = 0`, `y = 1`, `z = 0`, `z = 1`, and each face
  takes the two other axes in increasing order as its `(u, v)` frame, so that its vertices and
  lines are numbered like those of a square;
* bit `k` of a child number selects the upper half in coordinate `k`.

Every lookup checks its indices: an index outside its range is a `CellError.outOfRange`.

## Main definitions

* `FiniteElements.Cell.Hypercube`, `Hypercube.ofDim?`, the object counts.
* `Hypercube.lineVertices`, `lineAxis`, `faceVertex`, `faceLine`, `faceAxes`, `childBits`,
  `faceToCellPoint`, `childToParentPoint`, `facesSharingLine`.
-/

namespace FiniteElements.Cell

/-- The reference hypercubes `[0,1]`, `[0,1]^2` and `[0,1]^3`. -/
inductive Hypercube where
  | interval
  | square
  | cube
deriving Repr, BEq, DecidableEq, Inhabited

/-- The kinds of numbered objects whose indices are checked. -/
inductive Part where
  | line
  | face
  | faceVertex
  | faceLine
  | child
deriving Repr, BEq, DecidableEq

/-- The word for a numbered object in messages. -/
def Part.name : Part → String
  | .line => "line"
  | .face => "face"
  | .faceVertex => "face vertex"
  | .faceLine => "face line"
  | .child => "child"

/-- Why a question about a reference cell has no answer. -/
inductive CellError where
  /-- Only dimensions 1, 2 and 3 have reference cells. -/
  | unsupportedDimension (dim : Int)
  /-- An object index outside `[0, bound)` in a cell of dimension `dim`. -/
  | outOfRange (part : Part) (index : Int) (bound : Nat) (dim : Nat)
  /-- Faces of intervals and squares have no lines of their own. -/
  | noFaceLines (dim : Nat)
  /-- Only lines of the cube lie on two faces. -/
  | noSharedLines (dim : Nat)
  /-- An edge key holds two vertices in `[0, 2^32)`. -/
  | vertexOutOfRange (v0 v1 : Int)
  /-- A point has fewer coordinates than the map reads. -/
  | fault (f : Fault)
deriving Repr, BEq

/-- The text of a cell error. -/
def CellError.message : CellError → String
  | .unsupportedDimension d => s!"unsupported dimension {d}, must be 1, 2 or 3"
  | .outOfRange p i n d => s!"{p.name} index {i} out of range [0,{n}) in {d} dimensions"
  | .noFaceLines d => s!"faces have no lines in {d} dimensions"
  | .noSharedLines d => s!"lines are shared by two faces only in 3D, have dim = {d}"
  | .vertexOutOfRange v0 v1 => s!"vertices [{v0} {v1}] do not fit an edge key"
  | .fault f => f.message

namespace Hypercube

/-- The reference cell of a dimension. -/
def ofDim? (dim : Int) : Except CellError Hypercube :=
  if dim == 1 then .ok .interval
  else if dim == 2 then .ok .square
  else if dim == 3 then .ok .cube
  else .error (.unsupportedDimension dim)

/-- The dimension of the cell. -/
def dim : Hypercube → Nat
  | .interval => 1
  | .square => 2
  | .cube => 3

/-- The number of vertices, lines, quadrilaterals and hexahedra of the cell, by dimension. -/
def objectsPerCell : Hypercube → List Nat
  | .interval => [2, 1, 0, 0]
  | .square => [4, 4, 1, 0]
  | .cube => [8, 12, 6, 1]

/-- The number of vertices, lines and quadrilaterals of one face, by dimension, padded to four. -/
def objectsPerFace : Hypercube → List Nat
  | .interval => [1, 0, 0, 0]
  | .square => [2, 1, 0, 0]
  | .cube => [4, 4, 1, 0]

/-- Vertices of the cell. -/
def verticesPerCell (c : Hypercube) : Nat := (c.objectsPerCell).getD 0 0
/-- Lines of the cell. -/
def linesPerCell (c : Hypercube) : Nat := (c.objectsPerCell).getD 1 0
/-- Quadrilaterals of the cell. -/
def quadsPerCell (c : Hypercube) : Nat := (c.objectsPerCell).getD 2 0
/-- Hexahedra of the cell. -/
def hexesPerCell (c : Hypercube) : Nat := (c.objectsPerCell).getD 3 0
/-- Vertices of a face. -/
def verticesPerFace (c : Hypercube) : Nat := (c.objectsPerFace).getD 0 0
/-- Lines of a face. -/
def linesPerFace (c : Hypercube) : Nat := (c.objectsPerFace).getD 1 0
/-- Quadrilaterals of a face. -/
def quadsPerFace (c : Hypercube) : Nat := (c.objectsPerFace).getD 2 0

/-- Faces of the cell: two per axis. -/
def facesPerCell (c : Hypercube) : Nat := 2 * c.dim

/-- Children of the cell: one per corner. -/
def childrenPerCell (c : Hypercube) : Nat := Nat.pow 2 c.dim

/-- Children of a face. -/
def childrenPerFace (c : Hypercube) : Nat := Nat.pow 2 (c.dim - 1)

/-- `i` as a position in `[0, n)`, or the range error for `part`. -/
def check (c : Hypercube) (part : Part) (i : Int) (n : Nat) : Except CellError Nat :=
  if 0 ≤ i ∧ i < n then .ok i.toNat else .error (.outOfRange part i n c.dim)

/-- The lines of the square as vertex pairs, also the face-local lines of a cube face. -/
def squareLines : List (Nat × Nat) := [(0, 2), (1, 3), (0, 1), (2, 3)]

/-- The lines of the cube as vertex pairs. -/
def cubeLines : List (Nat × Nat) :=
  [(0, 2), (1, 3), (0, 1), (2, 3), (4, 6), (5, 7), (4, 5), (6, 7), (0, 4), (1, 5), (2, 6), (3, 7)]

/-- The vertices of each cube face, numbered in the face's `(u, v)` frame. -/
def cubeFaceVertices : List (List Nat) :=
  [[0, 2, 4, 6], [1, 3, 5, 7], [0, 1, 4, 5], [2, 3, 6, 7], [0, 1, 2, 3], [4, 5, 6, 7]]

/-- The lines of the cell as (start, end) vertex pairs. -/
def lines : Hypercube → List (Nat × Nat)
  | .interval => [(0, 1)]
  | .square => squareLines
  | .cube => cubeLines

/-- The cube line joining two vertices, in either order. -/
def cubeLineOf (a b : Nat) : Nat :=
  cubeLines.findIdx fun p => (p.1 == a && p.2 == b) || (p.1 == b && p.2 == a)

/-- The cell lines of each cube face in face-local order: face line `fl` is the cell line whose
vertices are the face vertices that line `fl` of the square joins. -/
def cubeFaceLines : List (List Nat) :=
  cubeFaceVertices.map fun fvs =>
    squareLines.map fun p => cubeLineOf (fvs.getD p.1 0) (fvs.getD p.2 0)

/-- The start and end vertex of line `l`. -/
def lineVertices (c : Hypercube) (l : Int) : Except CellError (Nat × Nat) := do
  let l ← c.check .line l c.linesPerCell
  return (c.lines.getD l (0, 0))

/-- The position of the highest set bit, `0` for `0` and `1`. -/
def highBit (n : Nat) : Nat :=
  if n ≤ 1 then 0 else highBit (n / 2) + 1
termination_by n
decreasing_by omega

/-- The coordinate axis line `l` points along. -/
def lineAxis (c : Hypercube) (l : Int) : Except CellError Nat := do
  let (a, b) ← c.lineVertices l
  return highBit (a ^^^ b)

/-- The cell vertex that is vertex `fv` of face `face`. -/
def faceVertex (c : Hypercube) (face fv : Int) : Except CellError Nat := do
  let f ← c.check .face face c.facesPerCell
  let v ← c.check .faceVertex fv c.verticesPerFace
  match c with
  | .interval => return f
  | .square => return (if v == 0 then (squareLines.getD f (0, 0)).1 else (squareLines.getD f (0, 0)).2)
  | .cube => return ((cubeFaceVertices.getD f []).getD v 0)

/-- The cell line that is line `fl` of face `face`; a face of the square is its own line. -/
def faceLine (c : Hypercube) (face fl : Int) : Except CellError Nat := do
  let f ← c.check .face face c.facesPerCell
  match c with
  | .interval => throw (.noFaceLines 1)
  | .square =>
    let _ ← c.check .faceLine fl 1
    return f
  | .cube =>
    let l ← c.check .faceLine fl c.linesPerFace
    return ((cubeFaceLines.getD f []).getD l 0)

/-- The normal axis of a face and its `(u, v)` axes in increasing order; an unused axis is `-1`. -/
def faceAxes (c : Hypercube) (face : Int) : Except CellError (Nat × Int × Int) := do
  let f ← c.check .face face c.facesPerCell
  let normal := f / 2
  let tangents : List Int := ((List.range c.dim).filter (· != normal)).map Int.ofNat
  return (normal, tangents.getD 0 (-1), tangents.getD 1 (-1))

/-- The list `xs` with position `i` replaced by `x`. -/
def setAt {α : Type} (xs : List α) (i : Nat) (x : α) : List α := xs.set i x

/-- Maps a point of the face frame onto the cell: the normal coordinate is `0` or `1` by the
face's side, the `(u, v)` coordinates are taken from `xi`. -/
def faceToCellPoint (c : Hypercube) (face : Int) (xi : List Float) :
    Except CellError (List Float) := do
  let (normal, u, v) ← c.faceAxes face
  let side : Float := if face % 2 == 1 then 1 else 0
  let start := setAt (List.replicate c.dim (0 : Float)) normal side
  let axes := [u, v].take (c.dim - 1)
  let place (x : List Float) (k : Nat) : Except CellError (List Float) := do
    let value ← (checkedIndex xi (k : Int)).mapError CellError.fault
    return setAt x (axes.getD k 0).toNat value
  (List.range axes.length).foldlM place start

/-- Which half of the parent the child occupies in each coordinate. -/
def childBits (c : Hypercube) (child : Int) : Except CellError (List Nat) := do
  let ch ← c.check .child child c.childrenPerCell
  return (List.range c.dim).map fun k => ch / Nat.pow 2 k % 2

/-- Maps a point of the child's unit cell into the parent: `x_k = (ξ_k + b_k) / 2`, computed as
`0.5 * (ξ_k + b_k)`. -/
def childToParentPoint (c : Hypercube) (child : Int) (xi : List Float) :
    Except CellError (List Float) := do
  let bits ← c.childBits child
  (List.range c.dim).mapM fun (k : Nat) => do
    let value ← (checkedIndex xi (k : Int)).mapError CellError.fault
    return 0.5 * (value + (bits.getD k 0).toFloat)

/-- The two faces of the cube containing line `l`, in increasing order. -/
def facesSharingLine (c : Hypercube) (l : Int) : Except CellError (Nat × Nat) := do
  if c != .cube then throw (.noSharedLines c.dim)
  let l ← c.check .line l c.linesPerCell
  let faces := (List.range 6).filter fun f => (cubeFaceLines.getD f []).contains l
  return (faces.getD 0 0, faces.getD 1 0)

end Hypercube

end FiniteElements.Cell
