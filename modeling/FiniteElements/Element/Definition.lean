import FiniteElements.Element.Store
import FiniteElements.Constraint.Consistency

/-!
# Element definitions

A `Definition` carries what an element family computes about itself: a name, the dof layout,
per shape function its restriction additivity and the components it is nonzero in, the transfer
matrices per child and the interface constraints. An empty list of transfer matrices, or the
empty constraint matrix, means the family does not provide them.

`Store.ofDefinition` validates a definition and builds the store of a simple element:

* the layout must be of a dimension with a reference cell, the element named, with at least one
  dof and one component, one additivity flag and one mask per dof, every mask of the size of the
  components and selecting at least one;
* transfer matrices are given for no child or for every child, each square of the dof count;
* constraints are of the layout's constraint size and consistent along face lines.

Its component indices count, per component, the primitive shape functions in dof order. A face
dof takes its component index from the cell dof of the same object kind at the same offset
(`faceCheckDof`), and lies on the cell where the reference cell's face numbering puts it.

## Main definitions

* `FiniteElements.Element.Definition`, `Definition.check`
* `FiniteElements.Element.faceCheckDof`, `FiniteElements.Element.geometricFaceDof`,
  `FiniteElements.Element.faceDofOf`
* `FiniteElements.Element.Store.assemble`, `FiniteElements.Element.Store.ofDefinition`
-/

namespace FiniteElements.Element

open FiniteElements.Cell FiniteElements.Dense FiniteElements.Constraint

/-- What a family computes about one of its elements. -/
structure Definition where
  name : String
  layout : DofLayout
  additive : List Bool
  masks : List Mask
  restriction : List Matrix := []
  prolongation : List Matrix := []
  constraints : Matrix := .empty
deriving Inhabited

/-- The first mask that is of the wrong size or selects nothing, with its position. -/
def firstBadMask (components : Int) (masks : List Mask) : Option (Nat × Mask) :=
  masks.zipIdx.find? (fun p => (p.1.size : Int) != components || p.1.count == 0) |>.map
    fun p => (p.2, p.1)

/-- The checks of a definition, in order; the first that fails is reported. -/
def Definition.check (d : Definition) : Except ElementError Hypercube := do
  let fd := d.layout
  let c ← (Hypercube.ofDim? fd.dim).mapError (ElementError.definitionCell d.name)
  if d.name == "" then throw .unnamed
  if fd.dofsPerCell < 1 || fd.components < 1 then
    throw (.emptyElement d.name fd.dofsPerCell fd.components)
  if (d.additive.length : Int) != fd.dofsPerCell then
    throw (.additivityCount d.name d.additive.length fd.dofsPerCell)
  if (d.masks.length : Int) != fd.dofsPerCell then
    throw (.maskCount d.name d.masks.length fd.dofsPerCell)
  if let some (i, m) := firstBadMask fd.components d.masks then
    if (m.size : Int) != fd.components then throw (.maskSize d.name i m.size fd.components)
    throw (.zeroShape d.name i)
  return c

/-- The cell dof of the same object kind at the same offset as face dof `i`: face vertex dofs are
the first cell vertex dofs, face line dofs the first cell line dofs, face interior dofs the first
cell quadrilateral dofs. -/
def faceCheckDof (fd : DofLayout) (c : Hypercube) (i : Int) : Int :=
  let faceVerts := c.verticesPerFace * fd.dofsPerVertex
  let faceLines := c.linesPerFace * fd.dofsPerLine
  let cellVerts := c.verticesPerCell * fd.dofsPerVertex
  match c with
  | .interval => i
  | .square => if i < faceVerts then i else cellVerts + (i - faceVerts)
  | .cube =>
    if i < faceVerts then i
    else if i < faceVerts + faceLines then cellVerts + (i - faceVerts)
    else cellVerts + c.linesPerCell * fd.dofsPerLine + (i - faceVerts - faceLines)

/-- Numbers the primitive shape functions of each component in the order given: per entry its
component index, `invalid` for masks that do not select exactly one component. -/
def numberComponents (components : Nat) (masks : List Mask) : List ComponentIndex :=
  let step (acc : List Nat × List ComponentIndex) (m : Mask) : List Nat × List ComponentIndex :=
    if m.count != 1 then (acc.1, acc.2 ++ [.invalid])
    else
      let c := (m.firstSelected).toNat
      let k := acc.1.getD c 0
      (acc.1.set c (k + 1), acc.2 ++ [⟨c, k⟩])
  (masks.foldl step (List.replicate components 0, [])).2

/-- The index tables of a simple element. -/
def defaultTables (d : Definition) (c : Hypercube) : Outcome IndexTables := do
  let fd := d.layout
  let cellDofs := fd.dofsPerCell.toNat
  let faceDofs := fd.dofsPerFace
  if faceDofs < 0 then liftFault (.error .negativeLength)
  let checkDofs ← (List.range faceDofs.toNat).mapM fun (i : Nat) => do
    let k := faceCheckDof fd c i
    let _ ← liftFault (checkedIndex d.masks k)
    return k.toNat
  return {
    systemToComponent := numberComponents fd.components.toNat d.masks
    faceSystemToComponent :=
      numberComponents fd.components.toNat (checkDofs.map fun k => d.masks.getD k default)
    systemToBase := (List.range cellDofs).map fun i => ⟨0, 0, i⟩
    faceSystemToBase := (List.range faceDofs.toNat).map fun i => ⟨0, 0, i⟩
    componentToBase := List.replicate fd.components.toNat ⟨0, 0⟩
    faceCheckDof := checkDofs }

/-- Accepts no transfer matrices, or one square matrix of the dof count per child, stored as
read-only copies named by kind and child. -/
def storeTransfer (kind : Transfer) (mats : List Matrix) (fd : DofLayout) (c : Hypercube) :
    Except ElementError (List Matrix) := do
  let populated := (mats.filter fun m => !m.isEmpty).length
  if populated == 0 then return []
  if mats.length != c.childrenPerCell || populated != mats.length then
    throw (.transferCount kind populated mats.length c.childrenPerCell)
  mats.zipIdx.mapM fun (m, child) => do
    if (m.rows : Int) != fd.dofsPerCell || (m.cols : Int) != fd.dofsPerCell then
      throw (.transferShape kind child m.rows m.cols fd.dofsPerCell)
    return m.copy.setReadOnly (some s!"{kind.name}[{child}]")

/-- Accepts no constraints, or a matrix of the layout's constraint size that is consistent along
face lines, stored as a copy. -/
def storeConstraints (C : Matrix) (fd : DofLayout) : Outcome Matrix := do
  if C.isEmpty then return .empty
  let (m, n) := fd.constraintsSize
  if (C.rows : Int) != m || (C.cols : Int) != n then report (.constraintShape C.rows C.cols m n)
  consistentAlongLines fd C
  return C.copy

/-- The cell dof that face dof `j` of face `face` is, when dofs are numbered object kind by object
kind: the dofs of face vertex, face line and face interior `k` are those of the cell vertex, cell
line and cell face that the reference cell says it is. -/
def geometricFaceDof (fd : DofLayout) (c : Hypercube) (j face : Int) : Outcome Int := do
  if j < fd.firstFaceLineIndex then
    let fv ← liftFault (truncDiv j fd.dofsPerVertex)
    let d ← liftFault (truncMod j fd.dofsPerVertex)
    let v ← liftCell (c.faceVertex face fv)
    return v * fd.dofsPerVertex + d
  else if j < fd.firstFaceQuadIndex then
    let off := j - fd.firstFaceLineIndex
    let fl ← liftFault (truncDiv off fd.dofsPerLine)
    let d ← liftFault (truncMod off fd.dofsPerLine)
    let l ← liftCell (c.faceLine face fl)
    return fd.firstLineIndex + l * fd.dofsPerLine + d
  else
    return fd.firstQuadIndex + face * fd.dofsPerQuad + (j - fd.firstFaceQuadIndex)

/-- The cell dof of every face dof, face by face, from a map of face dof and face; each must be a
dof of the cell. -/
def tabulateFaceDofs (fd : DofLayout) (c : Hypercube) (faceDof : Int → Int → Outcome Int) :
    Outcome (List (List Nat)) :=
  (List.range c.facesPerCell).mapM fun (f : Nat) =>
    (List.range fd.dofsPerFace.toNat).mapM fun (j : Nat) => do
      let k ← faceDof j f
      if 0 ≤ k ∧ k < fd.dofsPerCell then return k.toNat
      else liftFault (.error (.indexOutOfRange k fd.dofsPerCell.toNat))

/-- The cell dof of face dof `j` of face `f`: read from `faceMap` when given, else the reference
cell's face numbering. -/
def faceDofOf (fd : DofLayout) (c : Hypercube) (faceMap : Option (List (List Nat))) (j f : Int) :
    Outcome Int :=
  match faceMap with
  | some table => pure ((table.getD f.toNat []).getD j.toNat 0)
  | none => geometricFaceDof fd c j f

namespace Store

/-- The store of a checked definition with its tables; `faceMap` replaces the reference cell's
face numbering for elements that are not numbered object kind by object kind. -/
def assemble (d : Definition) (c : Hypercube) (tables : IndexTables)
    (faceMap : Option (List (List Nat))) : Outcome Store := do
  let fd := d.layout
  let restriction ← (storeTransfer .restriction d.restriction fd c).mapError
    fun e => .reported (.inElement d.name e)
  let prolongation ← (storeTransfer .prolongation d.prolongation fd c).mapError
    fun e => .reported (.inElement d.name e)
  let constraints ← (storeConstraints d.constraints fd).mapError
    (Failure.within (ElementError.inElement d.name))
  let constraints :=
    if constraints.isEmpty then constraints
    else constraints.setReadOnly (some (d.name ++ " interface constraints"))
  let faceDofs ← tabulateFaceDofs fd c (faceDofOf fd c faceMap)
  return { name := d.name, layout := fd, cell := c, additive := d.additive, masks := d.masks,
           restriction, prolongation, constraints, tables, entityOrdered := faceMap.isNone,
           faceDofs }

/-- The store of a simple element, or why its definition does not hold together. -/
def ofDefinition (d : Definition) : Outcome Store := do
  let c ← d.check.mapError Failure.reported
  let tables ← defaultTables d c
  assemble d c tables none

end Store

end FiniteElements.Element
