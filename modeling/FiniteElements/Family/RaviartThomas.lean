import FiniteElements.Element.Basic

/-!
# Raviart–Thomas elements

The lowest-order Raviart–Thomas element on the square or the cube has one dof per face: the flux
through the face in the positive direction of the face's normal axis. Every shape function is
nonzero in every component, so no shape function is primitive. Degree `0` is the only one.

* The prolongation to child `c`: the normal component along axis `a` varies linearly between the
  coarse faces `2a` and `2a + 1`, and a child face carries `2^(1-d)` of the coarse face.
* The interface constraints give every child face the same share `1 / 2^(d-1)` of the coarse
  flux.
* No restriction is provided.

## Main definitions

* `FiniteElements.Family.raviartThomas`, `FiniteElements.Family.raviartThomasSupportPoint`
-/

namespace FiniteElements.Family

open FiniteElements.Cell FiniteElements.Dense FiniteElements.Element

/-- The prolongation matrices, face by face. -/
def raviartThomasProlongation (c : Hypercube) : List Matrix :=
  let n := c.facesPerCell
  let scale := 1 / c.childrenPerFace.toFloat
  (List.range c.childrenPerCell).map fun child =>
    let bits : List Nat := (List.range c.dim).map fun k => child / Nat.pow 2 k % 2
    (Matrix.tabulate n n fun f j =>
      let a := f / 2
      let x := 0.5 * (f % 2 + bits.getD a 0).toFloat
      if j == 2 * a then 1 - x else if j == 2 * a + 1 then x else 0).scaleBy scale

/-- The interface constraints: one column of equal shares. -/
def raviartThomasConstraints (c : Hypercube) : Matrix :=
  let n := c.childrenPerFace
  (Matrix.tabulate n 1 fun _ _ => 1).scaleBy (1 / n.toFloat)

/-- The lowest-order Raviart–Thomas element of a dimension and degree. -/
def raviartThomas (dim degree : Int) : Outcome Element := do
  if degree != 0 then report (.onlyLowestDegree "FE_RaviartThomas" degree)
  if dim < 2 || dim > 3 then report (.planeOrSolidOnly "FE_RaviartThomas" dim)
  let c ← liftCell (Hypercube.ofDim? dim)
  let counts := (List.range (c.dim + 1)).map fun k => if k + 1 == c.dim then (1 : Int) else 0
  let fd ← (DofLayout.ofCounts? dim counts dim 1).mapError Failure.reported
  let dofs := fd.dofsPerCell.toNat
  let d : Definition :=
    { name := s!"FE_RaviartThomas<{dim}>(0)", layout := fd
      additive := List.replicate dofs false
      masks := List.replicate dofs ⟨List.replicate c.dim true⟩
      prolongation := raviartThomasProlongation c
      constraints := raviartThomasConstraints c }
  return .member .raviartThomas (← Store.ofDefinition d)

/-- The centre of the dof's face. -/
def raviartThomasSupportPoint (c : Hypercube) (i : Nat) : Outcome (List Float) :=
  liftCell (c.faceToCellPoint i (List.replicate (c.dim - 1) 0.5))

end FiniteElements.Family
