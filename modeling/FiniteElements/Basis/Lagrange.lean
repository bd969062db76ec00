import FiniteElements.Fault

/-!
# Lagrange polynomials on equispaced nodes

The Lagrange basis of degree `N ≥ 1` on `[0, 1]` has the nodes `k / N`, each computed as one
rounded quotient (`rational k N`), so that a point computed on a child cell and the same point
computed on its parent are the same double. Degree `0` has the single node `1/2`.

Basis function `j` at `x` is the product, over the other nodes `x_m` in increasing order, of
`(x - x_m) / (x_j - x_m)`.

## Main definitions

* `FiniteElements.Basis.rational`, `FiniteElements.Basis.Lagrange`
* `Lagrange.eval`, `Lagrange.evalAll`, `Lagrange.tensorEval`
-/

namespace FiniteElements.Basis

/-- Why a basis question has no answer. -/
inductive BasisError where
  /-- Degrees are natural numbers. -/
  | negativeDegree (degree : Int)
  /-- Basis functions are numbered `0 … N`. -/
  | indexOutOfRange (index : Int) (degree : Nat)
  /-- A quadrature rule has at least one point. -/
  | noPoints (points : Int)
  /-- A point has fewer coordinates than a tensor index. -/
  | fault (f : Fault)
deriving Repr, BEq

/-- The text of a basis error. -/
def BasisError.message : BasisError → String
  | .negativeDegree n => s!"polynomial degree must be non-negative, have {n}"
  | .indexOutOfRange j n => s!"basis index {j} out of range [0,{n}]"
  | .noPoints n => s!"quadrature needs at least one point, have {n}"
  | .fault f => f.message

/-- `num / den` rounded once. -/
def rational (num den : Int) : Float := Float.ofInt num / Float.ofInt den

/-- The Lagrange basis of a degree with its nodes. -/
structure Lagrange where
  degree : Nat
  nodes : List Float

namespace Lagrange

/-- The basis of degree `n`: nodes `k / n`, or `1/2` alone for degree `0`. -/
def ofDegree (n : Nat) : Lagrange :=
  if n == 0 then ⟨0, [0.5]⟩
  else ⟨n, (List.range (n + 1)).map fun (k : Nat) => rational k n⟩

/-- The basis of degree `n`, refusing a negative degree. -/
def ofDegree? (n : Int) : Except BasisError Lagrange :=
  if n < 0 then .error (.negativeDegree n) else .ok (ofDegree n.toNat)

/-- Basis function `j` at `x`, for `j` in `[0, N]`, as a product over the other nodes. -/
def evalAt (lb : Lagrange) (j : Nat) (x : Float) : Float :=
  let xj := lb.nodes.getD j 0
  lb.nodes.zipIdx.foldl
    (fun v (p : Float × Nat) => if p.2 == j then v else v * ((x - p.1) / (xj - p.1)))
    1

/-- Basis function `j` at `x`. -/
def eval (lb : Lagrange) (j : Int) (x : Float) : Except BasisError Float :=
  if j < 0 || j > lb.degree then .error (.indexOutOfRange j lb.degree)
  else .ok (lb.evalAt j.toNat x)

/-- Every basis function at `x`. -/
def evalAll (lb : Lagrange) (x : Float) : List Float :=
  (List.range (lb.degree + 1)).map fun j => lb.evalAt j x

/-- The tensor product function with one-dimensional indices `idx` at the point `x`: the product
of `eval idx[k] x[k]` for `k` ascending, from `1`. -/
def tensorEval (lb : Lagrange) (idx : List Int) (x : List Float) : Except BasisError Float :=
  idx.zipIdx.foldlM
    (fun v (p : Int × Nat) => do
      let xk ← (checkedIndex x p.2).mapError BasisError.fault
      let e ← lb.eval p.1 xk
      return v * e)
    1

/-- `tensorEval` for indices known to be in range and points long enough. -/
def tensorAt (lb : Lagrange) (idx : List Nat) (x : List Float) : Float :=
  idx.zipIdx.foldl (fun v (p : Nat × Nat) => v * lb.evalAt p.1 (x.getD p.2 0)) 1

end Lagrange

end FiniteElements.Basis
