import FiniteElements.Element.Basic
import FiniteElements.Basis.GaussLegendre
import FiniteElements.Dense.Inverse

/-!
# Discontinuous Lagrange elements

The discontinuous tensor-product Lagrange element of degree `N ≥ 0` has all its `(N+1)^d` dofs in
the cell interior, numbered lexicographically with `x` fastest; its one-dimensional nodes are
those of the Lagrange basis (`k / N`, or `1/2` for `N = 0`). Its transfer matrices are Kronecker
products of one-dimensional matrices, `z` outermost:

* the prolongation to child `c` interpolates the coarse basis at the child's nodes;
* the restriction to child `c` is the L2 projection `M⁻¹ · C_c` of the fine basis on the child
  onto the coarse space, with `M` the coarse mass matrix and `C_c` the coupling of coarse and fine
  functions over the child, both by Gauss–Legendre quadrature with `N + 1` points; entries below
  `10⁻¹²` in magnitude are set to zero. Restriction rows are additive over the children.

## Main definitions

* `FiniteElements.Family.prolongation1D`, `FiniteElements.Family.restriction1D`
* `FiniteElements.Family.tensorize`, `FiniteElements.Family.discontinuous`
* `FiniteElements.Family.discontinuousSupportPoint`
-/

namespace FiniteElements.Family

open FiniteElements.Cell FiniteElements.Dense FiniteElements.Basis FiniteElements.Element

/-- Entries this small are taken to be zero. -/
def nodeTolerance : Float := 1e-12

/-- The one-dimensional prolongation to child `c ∈ {0, 1}`: row `i` is the coarse basis at the
child's node `i`. -/
def prolongation1D (N c : Nat) : Matrix :=
  let lb := Lagrange.ofDegree N
  let point (i : Nat) : Float :=
    if N > 0 then rational (i + N * c : Nat) (2 * N : Nat) else 0.5 * (lb.nodes.getD i 0 + c.toFloat)
  Matrix.tabulate (N + 1) (N + 1) fun i j => lb.evalAt j (point i)

/-- Adds `f i j` to every entry `(i, j)` of a square array. -/
def accumulate (n : Nat) (acc : Array Float) (f : Nat → Nat → Float) : Array Float :=
  (List.range n).foldl
    (fun acc i => (List.range n).foldl (fun acc j => acc.modify (i * n + j) (· + f i j)) acc)
    acc

/-- The one-dimensional restriction from child `c ∈ {0, 1}`. -/
def restriction1D (N c : Nat) : Outcome Matrix := do
  let n := N + 1
  let lb := Lagrange.ofDegree N
  let (X, W) ← (gaussLegendre n 0 1).mapError fun e => .aborted (.quadrature e)
  let lo := 0.5 * c.toFloat
  let (Xc, _) ← (gaussLegendre n lo (lo + 0.5)).mapError fun e => .aborted (.quadrature e)
  let start := Array.replicate (n * n) (0 : Float)
  let values (x : Float) : Array Float := (List.range n).toArray.map fun i => lb.evalAt i x
  let (mass, coupling) := (List.range n).foldl
    (fun (acc : Array Float × Array Float) q =>
      let w := W.getD q 0
      let xc := Xc.getD q 0
      let atX := values (X.getD q 0)
      let atXc := values xc
      let onChild := values (2 * xc - c.toFloat)
      (accumulate n acc.1 fun i j => w * atX.getD i 0 * atX.getD j 0,
       accumulate n acc.2 fun i j => 0.5 * w * atXc.getD i 0 * onChild.getD j 0))
    (start, start)
  let M := { Matrix.tabulate n n (fun _ _ => 0) with entries := mass }
  let C := { Matrix.tabulate n n (fun _ _ => 0) with entries := coupling }
  let Minv ← M.inverse.mapError fun e => .reported (.matrix e)
  let R ← liftMatrix (Minv.mul C)
  return { R with entries := R.entries.map fun v => if v.abs < nodeTolerance then 0 else v }

/-- The matrices of every child as Kronecker products of one-dimensional ones, `z` outermost. -/
def tensorize (c : Hypercube) (m1D : Nat → Matrix) : Outcome (List Matrix) :=
  (List.range c.childrenPerCell).mapM fun child => do
    let bits : List Nat := (List.range c.dim).map fun k => child / Nat.pow 2 k % 2
    let M ← (List.range (c.dim - 1)).foldlM
      (fun (M : Matrix) k => liftMatrix ((m1D (bits.getD (k + 1) 0)).kronecker M))
      (m1D (bits.getD 0 0))
    return M.copy

/-- The definition of the discontinuous element of degree `N` on a cell. -/
def discontinuousDefinition (c : Hypercube) (N : Nat) : Outcome Definition := do
  let interior := Numeric.wrapWord (Int.pow (Numeric.wrapWord ((N : Int) + 1)) c.dim)
  let counts := (List.range (c.dim + 1)).map fun k => if k == c.dim then interior else 0
  let fd ← (DofLayout.ofCounts? c.dim counts 1 N).mapError Failure.reported
  -- the one-dimensional matrices are allocated first, the prolongations before the restrictions
  let _ ← liftMatrix (Matrix.zeros (N + 1 : Nat) (N + 1 : Nat))
  let R0 ← restriction1D N 0
  let R1 ← restriction1D N 1
  let P0 := prolongation1D N 0
  let P1 := prolongation1D N 1
  let prolongation ← tensorize c fun b => if b == 0 then P0 else P1
  let restriction ← tensorize c fun b => if b == 0 then R0 else R1
  let dofs := fd.dofsPerCell.toNat
  return { name := s!"FE_DGQ<{c.dim}>({N})", layout := fd
           additive := List.replicate dofs true
           masks := List.replicate dofs ⟨[true]⟩
           prolongation, restriction }

/-- The discontinuous element of a dimension and degree. -/
def discontinuous (dim degree : Int) : Outcome Element := do
  if degree < 0 then report (.degreeTooLow "FE_DGQ" 0 degree)
  let c ← (Hypercube.ofDim? dim).mapError fun e => .reported (.unsupportedCell e)
  let d ← discontinuousDefinition c degree.toNat
  return .member (.discontinuous degree.toNat) (← Store.ofDefinition d)

/-- The node of dof `i` on the unit cell: its digits in base `N + 1`, `x` first. -/
def discontinuousSupportPoint (c : Hypercube) (N : Nat) (i : Nat) : List Float :=
  let lb := Lagrange.ofDegree N
  (List.range c.dim).map fun k => lb.nodes.getD (i / Nat.pow (N + 1) k % (N + 1)) 0

end FiniteElements.Family
