import FiniteElements.Element.DofLayout

/-!
# Interface constraint layouts

When a face is refined, the dofs on the refined face are expressed in terms of the dofs on the
coarse face by an interface constraint matrix. Its rows are the refined entities, its columns the
coarse ones, each entity contributing as many rows (columns) as its kind carries dofs:

* in 2D the rows are the face midpoint and the two half-lines; the columns the two face vertices
  and the face line;
* in 3D the rows are the centre vertex, the midpoints of face lines `0 … 3`, the four interior
  lines (below, above, left, right of the centre), the eight half-lines (two per face line, the
  start side first) and the four child faces; the columns the four face vertices, the four face
  lines and the face interior.

## Main definitions

* `FiniteElements.Constraint.Group`, `rowGroups`, `columnGroups`, `groupOffsets`
* `FiniteElements.Element.DofLayout.constraintsSize`
-/

namespace FiniteElements.Constraint

open FiniteElements.Element

/-- The kinds of entity in a constraint layout. -/
inductive Group where
  | vertex
  | line
  | quad
deriving Repr, BEq, DecidableEq, Inhabited

/-- The object dimension of a group. -/
def Group.objectDim : Group → Nat
  | .vertex => 0
  | .line => 1
  | .quad => 2

/-- The entities whose dofs make up the rows, in order. -/
def rowGroups (dim : Int) : List Group :=
  if dim == 2 then [.vertex, .line, .line]
  else if dim == 3 then
    List.replicate 5 .vertex ++ List.replicate 12 .line ++ List.replicate 4 .quad
  else []

/-- The coarse face entities making up the columns, in order. -/
def columnGroups (dim : Int) : List Group :=
  if dim == 2 then [.vertex, .vertex, .line]
  else if dim == 3 then List.replicate 4 .vertex ++ List.replicate 4 .line ++ [.quad]
  else []

/-- The first row (or column) of every group and the total, for per-kind dof counts. -/
def groupOffsets (groups : List Group) (counts : List Int) : List Int :=
  groups.foldl (fun acc g => acc ++ [acc.getLast?.getD 0 + counts.getD g.objectDim 0]) [0]

end FiniteElements.Constraint

namespace FiniteElements.Element

/-- The shape `m × n` of the interface constraint matrix of a layout; `0 × 0` in 1D. -/
def DofLayout.constraintsSize (fd : DofLayout) : Int × Int :=
  let dv := fd.dofsPerVertex
  let dl := fd.dofsPerLine
  let dq := fd.dofsPerQuad
  let w := Numeric.wrapWord
  if fd.dim == 2 then (w (dv + 2 * dl), w (2 * dv + dl))
  else if fd.dim == 3 then (w (5 * dv + 12 * dl + 4 * dq), w (4 * dv + 4 * dl + dq))
  else (0, 0)

end FiniteElements.Element
