import FiniteElements.Element.Definition

/-!
# Composite elements

A composite is a vector-valued element made of copies of base elements of one dimension: base `b`
appears `m_b ≥ 1` times, and each copy is a block. Its components are those of the blocks in
order, and its dofs are those of the blocks, numbered

* interleaved: object kind by object kind and object by object, the dofs of every block on that
  object in block order (all bases must then be numbered object kind by object kind);
* blocked: block by block, each in its own numbering.

Everything else is derived from the blocks: a composite dof is additive and nonzero in the
components of its block dof (shifted to the block's components), its component index is the
block dof's shifted, its transfer matrices are block diagonal (when every base has them), and its
interface constraints place the constraints of every block on the rows and columns of that block
(when every base with face dofs has them).

## Main definitions

* `FiniteElements.Element.Block`, `FiniteElements.Element.BlockDof`
* `FiniteElements.Element.cellLayout`, `FiniteElements.Element.faceLayout`
* `FiniteElements.Element.Store.composite`
-/

namespace FiniteElements.Element

open FiniteElements.Cell FiniteElements.Dense FiniteElements.Constraint

/-- One copy of one base element, with the first component and the first cell dof it takes in
the blocked numbering. -/
structure Block where
  store : Store
  base : Nat
  copy : Nat
  compOffset : Nat
  cellOffset : Nat
deriving Inhabited

/-- A composite dof expressed in its block. -/
structure BlockDof where
  block : Nat
  index : Nat
deriving Repr, BEq, DecidableEq, Inhabited

/-- The blocks of a list of bases with their multiplicities, base by base and copy by copy. -/
def blocksOf (bases : List (Store × Nat)) : List Block :=
  let step (acc : List Block × Nat × Nat) (p : (Store × Nat) × Nat) :=
    let ((s, m), b) := p
    (List.range m).foldl
      (fun (acc : List Block × Nat × Nat) t =>
        (acc.1 ++ [⟨s, b, t, acc.2.1, acc.2.2⟩], acc.2.1 + s.components.toNat,
          acc.2.2 + s.dofsPerCell.toNat))
      acc
  (bases.zipIdx.foldl step ([], 0, 0)).1

/-- The dofs of the blocks on every object of kinds `0 … top - 1`, in the interleaved order. -/
def interleavedDofs (blocks : List Block) (objects : List Nat) (top : Nat)
    (first : DofLayout → Nat → Int) : List BlockDof :=
  (List.range top).flatMap fun k =>
    (List.range (objects.getD k 0)).flatMap fun o =>
      blocks.zipIdx.flatMap fun (blk, b) =>
        let n := blk.store.layout.countOf k
        (List.range n.toNat).map fun (d : Nat) => ⟨b, (first blk.store.layout k + o * n + d).toNat⟩

/-- The first cell dof of object kind `k`. -/
def DofLayout.firstOf (fd : DofLayout) (k : Nat) : Int :=
  [0, fd.firstLineIndex, fd.firstQuadIndex, fd.firstHexIndex].getD k 0

/-- The first face dof of face object kind `k`. -/
def DofLayout.firstFaceOf (fd : DofLayout) (k : Nat) : Int :=
  [0, fd.firstFaceLineIndex, fd.firstFaceQuadIndex].getD k 0

/-- The composite's cell dofs in their blocks. -/
def cellLayout (c : Hypercube) (packing : Packing) (blocks : List Block) : List BlockDof :=
  match packing with
  | .blocked =>
    blocks.zipIdx.flatMap fun (blk, b) =>
      (List.range blk.store.dofsPerCell.toNat).map fun i => ⟨b, i⟩
  | _ => interleavedDofs blocks c.objectsPerCell (c.dim + 1) DofLayout.firstOf

/-- The composite's face dofs in their blocks. -/
def faceLayout (c : Hypercube) (packing : Packing) (blocks : List Block) : List BlockDof :=
  match packing with
  | .blocked =>
    blocks.zipIdx.flatMap fun (blk, b) =>
      (List.range blk.store.layout.dofsPerFace.toNat).map fun i => ⟨b, i⟩
  | _ => interleavedDofs blocks c.objectsPerFace c.dim DofLayout.firstFaceOf

/-- The mask of a composite dof over `components` components: the mask of its block dof moved to
the block's components. -/
def shiftMask (blk : Block) (components : Nat) (m : Mask) : Mask :=
  ⟨(List.range components).map fun k => blk.compOffset ≤ k && m.get (k - blk.compOffset)⟩

/-- The block of a block dof. -/
def blockAt (blocks : List Block) (bd : BlockDof) : Block := blocks.getD bd.block default

/-- A block's component index moved to the composite's components; `invalid` stays. -/
def shiftIndex (blk : Block) (ci : Outcome ComponentIndex) : ComponentIndex :=
  match ci with
  | .ok ci => ⟨blk.compOffset + ci.component, ci.index⟩
  | .error _ => .invalid

/-- The composite's index tables; blocked composites also give their face numbering. -/
def systemTables (c : Hypercube) (packing : Packing) (blocks : List Block)
    (cell face : List BlockDof) (fd : DofLayout) :
    Outcome (IndexTables × Option (List (List Nat))) := do
  let place (bd : BlockDof) : BaseIndex :=
    let blk := blockAt blocks bd
    ⟨blk.base, blk.copy, bd.index⟩
  let faceCell (bd : BlockDof) (f : Nat) : Outcome Nat := do
    let blk := blockAt blocks bd
    let k ← blk.store.faceToCellIndex bd.index f
    return blk.cellOffset + k
  let (checkDofs, faceMap) ← match packing with
    | .blocked => do
      let check ← face.mapM fun bd => faceCell bd 0
      let table ← (List.range c.facesPerCell).mapM fun f => face.mapM fun bd => faceCell bd f
      pure (check, some table)
    | _ => pure ((List.range face.length).map fun (i : Nat) => (faceCheckDof fd c i).toNat, none)
  let tables : IndexTables := {
    systemToComponent := cell.map fun bd =>
      let blk := blockAt blocks bd
      shiftIndex blk (blk.store.systemToComponentIndex bd.index)
    faceSystemToComponent := face.map fun bd =>
      let blk := blockAt blocks bd
      shiftIndex blk (blk.store.faceSystemToComponentIndex bd.index)
    systemToBase := cell.map place
    faceSystemToBase := face.map place
    componentToBase := blocks.flatMap fun blk =>
      (List.range blk.store.components.toNat).map fun k => ⟨blk.base, k⟩
    faceCheckDof := checkDofs }
  return (tables, faceMap)

/-- The block-diagonal transfer matrices of a kind, none if a base has none. -/
def composeTransfer (kind : Transfer) (c : Hypercube) (cell : List BlockDof)
    (blocks : List Block) : Outcome (List Matrix) := do
  if !(blocks.all fun blk => blk.store.transferIsImplemented kind) then return []
  let n := cell.length
  let dofs := cell.toArray
  (List.range c.childrenPerCell).mapM fun (child : Nat) => do
    let mats ← blocks.mapM fun blk => blk.store.transferMatrix kind child
    let entries := (Array.range (n * n)).map fun k =>
      let (bi, bj) := (dofs.getD (k / n) default, dofs.getD (k % n) default)
      if bi.block == bj.block then (mats.getD bi.block .empty).get bi.index bj.index else 0
    let m ← liftMatrix (Matrix.zeros n n)
    return { m with entries }

/-- The rows (or columns) of a constraint layout expressed in their blocks: group by group, the
dofs of every block on that entity in block order. -/
def decodeGroups (groups : List Group) (blocks : List Block) : List BlockDof :=
  let offsets := blocks.map fun blk => groupOffsets groups blk.store.layout.objectCounts
  groups.zipIdx.flatMap fun (g, gi) =>
    blocks.zipIdx.flatMap fun (blk, b) =>
      let n := blk.store.layout.objectCounts.getD g.objectDim 0
      (List.range n.toNat).map fun (d : Nat) => ⟨b, ((offsets.getD b []).getD gi 0 + d).toNat⟩

/-- The composite's interface constraints, empty if a base with face dofs has none. -/
def composeConstraints (fd : DofLayout) (blocks : List Block) : Outcome Matrix := do
  let (m, n) := fd.constraintsSize
  -- the size is asked as a machine word, whose product wraps
  if Numeric.wrapWord (m * n) == 0 then return .empty
  if blocks.any fun blk =>
      blk.store.layout.dofsPerFace != 0 && !blk.store.constraintsAreImplemented then
    return .empty
  let baseC ← blocks.mapM fun blk =>
    if blk.store.layout.dofsPerFace == 0 then pure Matrix.empty
    else blk.store.interfaceConstraints
  let rows := (decodeGroups (rowGroups fd.dim) blocks).toArray
  let cols := (decodeGroups (columnGroups fd.dim) blocks).toArray
  let C ← liftMatrix (Matrix.zeros m n)
  let entries := (Array.range (C.rows * C.cols)).map fun k =>
    let (rd, cd) := (rows.getD (k / C.cols) default, cols.getD (k % C.cols) default)
    if rd.block == cd.block then (baseC.getD rd.block .empty).get rd.index cd.index else 0
  return { C with entries }

/-- The name of a base in the composite's name: `name^m` for more than one copy. -/
def baseLabel (s : Store) (m : Int) : String :=
  if m > 1 then s.name ++ s!"^{m}" else s.name

/-- The checks of base `b` with multiplicity `m`, against the dimension `dim0` of the first base:
present, of multiplicity at least one, of the first base's dimension, and numbered object kind by
object kind when interleaved. -/
def checkBase (packing : Packing) (dim0 : Int) (spec : (Option Store × Int) × Nat) :
    Except ElementError (Store × Nat) := do
  let ((s?, m), b) := spec
  let some s := s? | throw (.missingBase b)
  if m < 1 then throw (.badMultiplicity b s.name m)
  if b != 0 && s.layout.dim != dim0 then throw (.baseDimension b s.name s.layout.dim dim0)
  if packing == .interleaved && !s.entityOrdered then throw (.notEntityOrdered b s.name)
  return (s, m.toNat)

/-- The checks of the bases, in order; the first that fails is reported. -/
def checkBases (packing : Packing) (bases : List (Option Store × Int)) :
    Except ElementError (List (Store × Nat)) :=
  let dim0 := match bases.head? with
    | some (some s, _) => s.layout.dim
    | _ => 0
  bases.zipIdx.mapM (checkBase packing dim0)

namespace Store

/-- The composite of bases with multiplicities under a packing; a missing base is `none`. -/
def composite (packing : Packing) (bases : List (Option Store × Int)) : Outcome Store := do
  if bases.isEmpty then report .noBases
  if !(packing == .interleaved || packing == .blocked) then report (.unknownPacking packing)
  let checked ← (checkBases packing bases).mapError Failure.reported
  let blocks := blocksOf checked
  let dim := (checked.head?.map fun p => p.1.layout.dim).getD 0
  let counts := (List.range (dim.toNat + 1)).map fun k =>
    Numeric.wrapWord ((blocks.map fun blk => blk.store.layout.countOf k).foldr (· + ·) 0)
  let components := (blocks.map fun blk => blk.store.components).foldr (· + ·) 0
  let degree := checked.foldl (fun d p => max d p.1.layout.degree) 0
  let fd ← (DofLayout.ofCounts? dim counts components degree).mapError Failure.reported
  let c ← liftCell (Hypercube.ofDim? dim)
  let cell := cellLayout c packing blocks
  let face := faceLayout c packing blocks
  let name := s!"FESystem<{dim}>[" ++
    String.intercalate "-" (checked.map fun p => baseLabel p.1 p.2) ++ "]"
  let additive ← cell.mapM fun bd => (blockAt blocks bd).store.restrictionIsAdditive bd.index
  let masks ← cell.mapM fun bd => do
    let blk := blockAt blocks bd
    let m ← blk.store.nonzeroComponents bd.index
    return shiftMask blk components.toNat m
  let d : Definition := { name, layout := fd, additive, masks }
  let _ ← d.check.mapError Failure.reported
  let restriction ← composeTransfer .restriction c cell blocks
  let prolongation ← composeTransfer .prolongation c cell blocks
  let constraints ← composeConstraints fd blocks
  let (tables, faceMap) ← systemTables c packing blocks cell face fd
  assemble { d with restriction, prolongation, constraints } c tables faceMap

end Store

end FiniteElements.Element
