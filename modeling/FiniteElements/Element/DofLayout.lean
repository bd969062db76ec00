import FiniteElements.Element.Error
import FiniteElements.Numeric.Word

/-!
# Dof layouts

A dof layout says how many degrees of freedom live on each vertex, line, quadrilateral and
hexahedron of the reference cell, and numbers the dofs of the cell object kind by object kind:
all vertex dofs first (vertex by vertex), then the line dofs, the quadrilateral dofs and the
interior dofs. The dofs of one face are numbered the same way over the face's own objects. The
offsets of these blocks follow from the counts of the reference cell.

The fields are plain integers: a layout can also be given directly, and then only the checks of an
element definition decide whether it holds together.

## Main definitions

* `FiniteElements.Element.DofLayout`, `DofLayout.ofCounts?`
* `DofLayout.objectCounts`, `DofLayout.firstObjectIndex`, `DofLayout.firstFaceObjectIndex`,
  `DofLayout.text`
-/

namespace FiniteElements.Element

open FiniteElements.Cell

/-- How many dofs live on each kind of object of the reference cell, and where each kind starts
in the numbering of the cell and of a face. -/
structure DofLayout where
  dim : Int := 0
  dofsPerVertex : Int := 0
  dofsPerLine : Int := 0
  dofsPerQuad : Int := 0
  dofsPerHex : Int := 0
  firstLineIndex : Int := 0
  firstQuadIndex : Int := 0
  firstHexIndex : Int := 0
  firstFaceLineIndex : Int := 0
  firstFaceQuadIndex : Int := 0
  dofsPerFace : Int := 0
  dofsPerCell : Int := 0
  components : Int := 0
  degree : Int := 0
deriving Repr, BEq, Inhabited

namespace DofLayout

/-- The first of the offending counts: a negative one, with its object dimension. -/
def firstNegative (counts : List Int) : Option (Int × Nat) :=
  (counts.zipIdx.find? fun p => p.1 < 0)

/-- The layout of the per-object counts `[vertex, line, …]`, one per object dimension up to
`dim`, with `components ≥ 1` vector components. -/
def ofCounts? (dim : Int) (counts : List Int) (components degree : Int) :
    Except ElementError DofLayout := do
  let c ← (Hypercube.ofDim? dim).mapError ElementError.unsupportedCell
  if counts.length != dim.toNat + 1 then throw (.countsLength dim counts.length)
  if let some (n, k) := firstNegative counts then throw (.negativeCount n k)
  if components < 1 then throw (.noComponents components)
  let v := counts.getD 0 0
  let l := counts.getD 1 0
  let q := counts.getD 2 0
  let h := counts.getD 3 0
  let firstLine := Numeric.wrapWord (c.verticesPerCell * v)
  let firstQuad := Numeric.wrapWord (firstLine + c.linesPerCell * l)
  let firstHex := Numeric.wrapWord (firstQuad + c.quadsPerCell * q)
  let cellDofs := Numeric.wrapWord (firstHex + c.hexesPerCell * h)
  let firstFaceLine := Numeric.wrapWord (c.verticesPerFace * v)
  let firstFaceQuad := Numeric.wrapWord (firstFaceLine + c.linesPerFace * l)
  let faceDofs := Numeric.wrapWord (firstFaceQuad + c.quadsPerFace * q)
  if cellDofs < 1 then throw .noDofs
  return { dim, dofsPerVertex := v, dofsPerLine := l, dofsPerQuad := q, dofsPerHex := h,
           firstLineIndex := firstLine, firstQuadIndex := firstQuad, firstHexIndex := firstHex,
           firstFaceLineIndex := firstFaceLine, firstFaceQuadIndex := firstFaceQuad,
           dofsPerFace := faceDofs, dofsPerCell := cellDofs, components, degree }

/-- The counts of all four object kinds. -/
def allCounts (fd : DofLayout) : List Int :=
  [fd.dofsPerVertex, fd.dofsPerLine, fd.dofsPerQuad, fd.dofsPerHex]

/-- The counts `[vertex, line, …]` up to the cell dimension. -/
def objectCounts (fd : DofLayout) : List Int := fd.allCounts.take (fd.dim.toNat + 1)

/-- The count of object kind `k`, zero past the hexahedra. -/
def countOf (fd : DofLayout) (k : Nat) : Int := fd.allCounts.getD k 0

/-- The first cell dof on objects of dimension `k`. -/
def firstObjectIndex (fd : DofLayout) (k : Int) : Outcome Int :=
  if k == 0 then pure 0
  else if k == 1 then pure fd.firstLineIndex
  else if k == 2 then pure fd.firstQuadIndex
  else if k == 3 then pure fd.firstHexIndex
  else abort (.indexRange .objectDimension k 4)

/-- The first face dof on face objects of dimension `k`. -/
def firstFaceObjectIndex (fd : DofLayout) (k : Int) : Outcome Int :=
  if k == 0 then pure 0
  else if k == 1 then pure fd.firstFaceLineIndex
  else if k == 2 then pure fd.firstFaceQuadIndex
  else abort (.indexRange .faceObjectDimension k 3)

/-- Integers as a bracketed list separated by blanks: `[1 0 0]`. -/
def intsText (xs : List Int) : String := "[" ++ String.intercalate " " (xs.map toString) ++ "]"

/-- The one-line description of a layout. -/
def text (fd : DofLayout) : String :=
  s!"dim={fd.dim} dofs/object=" ++ intsText fd.objectCounts ++
    s!" dofs/face={fd.dofsPerFace} dofs/cell={fd.dofsPerCell} components={fd.components} degree={fd.degree}"

end DofLayout

end FiniteElements.Element
