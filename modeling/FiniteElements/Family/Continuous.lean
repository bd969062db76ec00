import FiniteElements.Element.Basic
import FiniteElements.Basis.Lagrange

/-!
# Continuous Lagrange elements

The continuous tensor-product Lagrange element of degree `N ≥ 1` has its nodes on the grid of
spacing `1/N`; a dof is named by the multi-index of its node, in units of `1/N`. Dofs are numbered
object kind by object kind: the vertices, then the interior nodes of every line in the line's
direction, then the interior nodes of every face lexicographically in the face's `(u, v)` frame,
then the interior nodes of the cell lexicographically in `(x, y, z)`.

* The prolongation to child `c` interpolates the coarse basis at the child's nodes, which lie at
  `(idx + N · bit) / (2N)`.
* The restriction to child `c` injects, for every coarse node, the value of the fine dof at the
  same point, taken from the first child containing the node.
* The interface constraints evaluate the coarse face basis at the nodes of the refined face,
  placed at multiples of `1/(2N)` in the face frame.

## Main definitions

* `FiniteElements.Family.continuousNodes`, `FiniteElements.Family.continuousDefinition`
* `FiniteElements.Family.continuous`, `FiniteElements.Family.continuousSupportPoint`
* `FiniteElements.Family.vertexIdentities`, `lineIdentities`, `quadIdentities`
* `FiniteElements.Family.hpVertexDofIdentities`, `hpLineDofIdentities`, `hpQuadDofIdentities`:
  the identities with another element, empty unless it is continuous too
-/

namespace FiniteElements.Family

open FiniteElements.Cell FiniteElements.Dense FiniteElements.Basis FiniteElements.Element

/-- The multi-index of vertex `v` of the cell: `N` where bit `k` of `v` is set. -/
def vertexNode (c : Hypercube) (N v : Nat) : List Nat :=
  (List.range c.dim).map fun k => v / Nat.pow 2 k % 2 * N

/-- The interior nodes `1 … N-1` along both axes of a face frame, `u` fastest. -/
def interiorPairs (N : Nat) : List (Nat × Nat) :=
  (List.range (N - 1)).flatMap fun j => (List.range (N - 1)).map fun i => (i + 1, j + 1)

/-- The multi-indices of the nodes in dof order. -/
def continuousNodes (c : Hypercube) (N : Nat) : List (List Nat) :=
  let vertices := (List.range c.verticesPerCell).map (vertexNode c N)
  let lineNodes := c.lines.flatMap fun (a, b) =>
    let axis := Hypercube.highBit (a ^^^ b)
    (List.range (N - 1)).map fun j => (vertexNode c N a).set axis (j + 1)
  let inner := match c with
    | .interval => []
    | .square => (interiorPairs N).map fun (i, j) => [i, j]
    | .cube =>
      let faces := (List.range 6).flatMap fun f =>
        let normal := f / 2
        let tangents := (List.range 3).filter (· != normal)
        (interiorPairs N).map fun (i, j) =>
          (((List.replicate 3 0).set normal (f % 2 * N)).set (tangents.getD 0 0) i).set
            (tangents.getD 1 0) j
      let cells := (List.range (N - 1)).flatMap fun k =>
        (interiorPairs N).map fun (i, j) => [i, j, k + 1]
      faces ++ cells
  vertices ++ lineNodes ++ inner

/-- The per-object dof counts `(N-1)^k`, as machine integers. -/
def continuousCounts (c : Hypercube) (N : Nat) : List Int :=
  (List.range (c.dim + 1)).map fun k => Numeric.wrapWord (Int.pow ((N : Int) - 1) k)

/-- The one-dimensional basis of degree `N` at the points `m / (2N)`, `m = 0 … 2N`: entry `[j][m]`
is basis function `j` at the `m`-th point. -/
def halfGridValues (N : Nat) : Array (Array Float) :=
  let lb := Lagrange.ofDegree N
  (List.range (N + 1)).toArray.map fun j =>
    (List.range (2 * N + 1)).toArray.map fun (m : Nat) => lb.evalAt j (rational m (2 * N : Nat))

/-- The prolongation matrices: row `f` of child `c` is the coarse basis at the child's node `f`,
which lies at `(idx + N · bit) / (2N)`; the basis is the product of the one-dimensional values,
axis by axis. -/
def continuousProlongation (c : Hypercube) (N : Nat) (nodes : List (List Nat)) : List Matrix :=
  let values := halfGridValues N
  let coarse := (nodes.map List.toArray).toArray
  let n := nodes.length
  (List.range c.childrenPerCell).map fun child =>
    let bits : List Nat := (List.range c.dim).map fun k => child / Nat.pow 2 k % 2
    let points := (nodes.map fun idx =>
      ((idx.zip bits).map fun (x, b) => x + N * b).toArray).toArray
    Matrix.tabulate n n fun f j =>
      let node := coarse.getD j #[]
      let point := points.getD f #[]
      (List.range c.dim).foldl
        (fun v k => v * (values.getD (node.getD k 0) #[]).getD (point.getD k 0) 0) 1

/-- The fine node of child `c` at the coarse node `idx`, if the child contains it. -/
def fineNode (N : Nat) (idx bits : List Nat) : Option (List Int) :=
  let fine : List Int := (idx.zip bits).map fun (x, b) => 2 * (x : Int) - (N : Int) * b
  if fine.all fun x => 0 ≤ x ∧ x ≤ N then some fine else none

/-- The restriction matrices: coarse dof `i` takes the fine dof at its node from the first child
containing it. -/
def continuousRestriction (c : Hypercube) (N : Nat) (nodes : List (List Nat)) : List Matrix :=
  let n := nodes.length
  let children := List.range c.childrenPerCell
  let bitsOf (child : Nat) : List Nat := (List.range c.dim).map fun k => child / Nat.pow 2 k % 2
  let source (idx : List Nat) : Option (Nat × Nat) :=
    children.findSome? fun child =>
      (fineNode N idx (bitsOf child)).bind fun fine =>
        (nodes.findIdx? fun m => m.map Int.ofNat == fine).map fun k => (child, k)
  let sources := (nodes.map source).toArray
  children.map fun child =>
    Matrix.tabulate n n fun i k => if sources.getD i none == some (child, k) then 1 else 0

/-- The rows of the interface constraints: the refined face's nodes in units of `1/(2N)`. -/
def constraintRows (dim N : Nat) : List (Nat × Nat) :=
  let ks := (List.range (N - 1)).map (· + 1)
  if dim == 2 then
    [(N, 0)] ++ [0, 1].flatMap fun h => ks.map fun k => (h * N + k, 0)
  else if dim == 3 then
    let centre := [(N, N), (0, N), (2 * N, N), (N, 0), (N, 2 * N)]
    let interior := ks.map (fun k => (N, k)) ++ ks.map (fun k => (N, N + k)) ++
      ks.map (fun k => (k, N)) ++ ks.map (fun k => (N + k, N))
    let halves := (List.range 4).flatMap fun l => [0, 1].flatMap fun h => ks.map fun k =>
      let t := h * N + k
      match l with
      | 0 => (0, t)
      | 1 => (2 * N, t)
      | 2 => (t, 0)
      | _ => (t, 2 * N)
    let quads := (List.range 4).flatMap fun q =>
      (interiorPairs N).map fun (i, j) => (q % 2 * N + i, q / 2 * N + j)
    centre ++ interior ++ halves ++ quads
  else []

/-- The columns of the interface constraints: the coarse face's nodes in units of `1/N`. -/
def constraintColumns (dim N : Nat) : List (Nat × Nat) :=
  let ks := (List.range (N - 1)).map (· + 1)
  if dim == 2 then [(0, 0), (N, 0)] ++ ks.map fun j => (j, 0)
  else if dim == 3 then
    (List.range 4).map (fun v => (v % 2 * N, v / 2 * N)) ++
      (List.range 4).flatMap (fun l => ks.map fun j =>
        match l with
        | 0 => (0, j)
        | 1 => (N, j)
        | 2 => (j, 0)
        | _ => (j, N)) ++
      (interiorPairs N).map fun (i, j) => (i, j)
  else []

/-- The interface constraints: the coarse face basis at the refined face's nodes. -/
def continuousConstraints (c : Hypercube) (N : Nat) : Matrix :=
  if c.dim == 1 then .empty
  else
    let lb := Lagrange.ofDegree N
    let rows := (constraintRows c.dim N).toArray
    let cols := (constraintColumns c.dim N).toArray
    let faceDim := c.dim - 1
    Matrix.tabulate rows.size cols.size fun i j =>
      let (r0, r1) := rows.getD i (0, 0)
      let (c0, c1) := cols.getD j (0, 0)
      let x := [rational r0 (2 * N), rational r1 (2 * N)].take faceDim
      lb.tensorAt ([c0, c1].take faceDim) x

/-- The definition of the continuous element of degree `N ≥ 1` on a cell. The transfer matrices
are square in the number of nodes and are allocated before anything else is filled in; the
interface constraints are smaller, so the first allocation is the one that can fail. -/
def continuousDefinition (c : Hypercube) (N : Nat) : Outcome Definition := do
  let fd ← (DofLayout.ofCounts? c.dim (continuousCounts c N) 1 N).mapError Failure.reported
  let nodes := continuousNodes c N
  let _ ← liftMatrix (Matrix.zeros nodes.length nodes.length)
  let dofs := fd.dofsPerCell.toNat
  return { name := s!"FE_Q<{c.dim}>({N})", layout := fd
           additive := List.replicate dofs false
           masks := List.replicate dofs ⟨[true]⟩
           prolongation := continuousProlongation c N nodes
           restriction := continuousRestriction c N nodes
           constraints := continuousConstraints c N }

/-- The continuous element of a dimension and degree. -/
def continuous (dim degree : Int) : Outcome Element := do
  if degree < 1 then report (.degreeTooLow "FE_Q" 1 degree)
  let c ← (Hypercube.ofDim? dim).mapError fun e => .reported (.unsupportedCell e)
  let d ← continuousDefinition c degree.toNat
  return .member (.continuous degree.toNat) (← Store.ofDefinition d)

/-- The node of dof `i` on the unit cell. -/
def continuousSupportPoint (c : Hypercube) (N : Nat) (i : Nat) : List Float :=
  ((continuousNodes c N).getD i []).map fun (m : Nat) => rational m N

/-- The vertex dofs two continuous elements share: the one vertex dof of each. -/
def vertexIdentities : List (Nat × Nat) := [(0, 0)]

/-- The pairs of line interior dofs of degrees `N` and `M` on the same point of a line,
increasing in the first. -/
def lineIdentities (N M : Nat) : List (Nat × Nat) :=
  (List.range (N - 1)).flatMap fun a =>
    ((List.range (M - 1)).filter fun b => (a + 1) * M == (b + 1) * N).map fun b => (a, b)

/-- The pairs of face interior dofs of degrees `N` and `M` on the same point of a face. -/
def quadIdentities (N M : Nat) : List (Nat × Nat) :=
  let lines := lineIdentities N M
  lines.flatMap fun pj => lines.map fun pi => (pj.1 * (N - 1) + pi.1, pj.2 * (M - 1) + pi.2)

/-- The vertex dofs a continuous element shares with `other`. Only continuous elements share dofs
with it. -/
def hpVertexDofIdentities (other : Element) : List (Nat × Nat) :=
  match other with
  | .member (.continuous _) _ => vertexIdentities
  | _ => []

/-- The line interior dofs a continuous element of degree `N` shares with `other`. -/
def hpLineDofIdentities (N : Nat) (other : Element) : List (Nat × Nat) :=
  match other with
  | .member (.continuous M) _ => lineIdentities N M
  | _ => []

/-- The face interior dofs a continuous element of degree `N` on cell `c` shares with `other`;
only the cube has faces with interior dofs of their own. -/
def hpQuadDofIdentities (c : Hypercube) (N : Nat) (other : Element) : List (Nat × Nat) :=
  match other with
  | .member (.continuous M) _ => if c.dim == 3 then quadIdentities N M else []
  | _ => []

end FiniteElements.Family
