import FiniteElements.Basis.Lagrange
import FiniteElements.Basis.Tridiagonal

/-!
# Gauss–Legendre quadrature

The `n`-point Gauss–Legendre rule on `[a, b]` by the Golub–Welsch method: the nodes on `[-1, 1]`
are the eigenvalues of the symmetric Jacobi matrix of the Legendre recurrence, with zero diagonal
and off-diagonal entries `i / √(4i² - 1)`, and the weights are `2 v²` with `v` the first entry of
the unit eigenvector. Mapped to `[a, b]` with `mid = (a + b) / 2` and `half = (b - a) / 2`, node
`x` becomes `mid + half · x` and weight `w` becomes `w · half`.

## Main definitions

* `FiniteElements.Basis.jacobiOffDiagonal`, `FiniteElements.Basis.gaussLegendre`
-/

namespace FiniteElements.Basis

/-- The off-diagonal of the Legendre Jacobi matrix of size `n`: `i / √(4i² - 1)`, `i = 1 … n-1`. -/
def jacobiOffDiagonal (n : Nat) : Array Float :=
  (List.range (n - 1)).toArray.map fun k =>
    let i := (k + 1).toFloat
    i / (4 * i * i - 1).sqrt

/-- Why a quadrature rule could not be built: too few points, or no convergence. -/
inductive RuleError where
  | basis (e : BasisError)
  | noConvergence
deriving Repr, BEq

/-- The text of a quadrature error. -/
def RuleError.message : RuleError → String
  | .basis e => e.message
  | .noConvergence => "eigenvalue decomposition failed"

/-- The `n`-point rule on `[a, b]`: nodes increasing, with their weights. -/
def gaussLegendre (n : Int) (a b : Float) : Except RuleError (List Float × List Float) := do
  if n < 1 then throw (.basis (.noPoints n))
  let n := n.toNat
  let half := 0.5 * (b - a)
  let mid := 0.5 * (b + a)
  match Tridiagonal.eigen (Array.replicate n 0) (jacobiOffDiagonal n) with
  | none => throw .noConvergence
  | some (values, row) =>
    let xs := values.toList.map fun x => mid + half * x
    let ws := row.toList.map fun v => 2 * v * v * half
    return (xs, ws)

end FiniteElements.Basis
