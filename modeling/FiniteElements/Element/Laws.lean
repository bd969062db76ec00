import FiniteElements.Element.Support
import FiniteElements.Numeric.Ieee

/-!
# Transfer and constraint laws

Checks that an element's matrices obey the laws refinement relies on.

* **Concatenation.** A fine dof shared by several children (the same dof of the same block at the
  same point of the parent, the point written with twelve decimals) gets bit-identical
  prolongation rows from every child. Elements without support points skip this check.
* **Restriction.** An additive restriction row `i` satisfies `Σ_c R_c[i] · P_c = e_i`; a
  non-additive row is taken from exactly one child `c`, with `R_c[i] · P_c = e_i`. Without
  prolongation only the number of contributing children is checked. Entries are compared with
  a tolerance.
* **Shared lines.** In 3D the two faces of the cell that share a line constrain the refined dofs on
  the line (its midpoint and both half-lines) with bit-identical weights on the same coarse cell
  dofs. Only elements numbered object kind by object kind are checked.

## Main definitions

* `FiniteElements.Element.dofTag`
* `FiniteElements.Element.checkTransferLaws`
* `FiniteElements.Element.checkSharedLineConstraints`
-/

namespace FiniteElements.Element

open FiniteElements.Cell FiniteElements.Dense


/-- The blocks a dof lies in, through every level of composition: `b.t/` per level. -/
def dofTag : Element → Nat → String
  | .composite s _ bases _, i =>
    match s.tables.systemToBase[i]? with
    | none => ""
    | some bi =>
      let tag := s!"{bi.base}.{bi.copy}/"
      match bases.attach[bi.base]? with
      | none => tag
      | some ⟨base, _⟩ => tag ++ dofTag base bi.index
  | _, _ => ""
termination_by e => sizeOf e

/-- A point written with twelve decimals per coordinate: `[x y z]`. -/
def pointKey (x : List Float) : String :=
  "[" ++ String.intercalate " " (x.map (Decimal.fixedText 12)) ++ "]"

/-- The first position where two rows differ, with both entries. -/
def firstDifference (row prev : List Float) : Option (Nat × Float × Float) :=
  ((row.zip prev).zipIdx.find? fun p => p.1.1 != p.1.2).map fun p => (p.2, p.1.1, p.1.2)

/-- Checks that shared fine dofs get identical prolongation rows from every child. -/
def checkConcatenation (e : Element) : Outcome Unit := do
  let s := e.store
  let points ← e.supportPoints
  let step (rows : List (String × List Float)) (cf : Nat × Nat) :
      Outcome (List (String × List Float)) := do
    let (c, f) := cf
    let P ← s.prolongationMatrix c
    let x ← liftCell (s.cell.childToParentPoint c (points.getD f []))
    let key := e.dofTag f ++ "@" ++ pointKey x
    let row := P.getRow f
    match rows.lookup key with
    | none => return rows ++ [(key, row)]
    | some prev =>
      match firstDifference row prev with
      | none => return rows
      | some (j, v, w) => report (.sharedDofDiffers s.name c f x j v w)
  let pairs := (List.range s.cell.childrenPerCell).flatMap fun c =>
    (List.range points.length).map fun f => (c, f)
  let _ ← pairs.foldlM step []

/-- The largest magnitude in a row, from `0`; a `NaN` entry makes it `NaN`. -/
def maxAbs (row : List Float) : Float := row.foldl (fun m v => Numeric.ieeeMax m v.abs) 0

/-- The first entry of a row farther than `tol` from the identity row `e_i`, with its value and
the value wanted. -/
def offIdentity (row : List Float) (i : Nat) (tol : Float) : Option (Nat × Float × Float) :=
  (row.zipIdx.find? fun p => (p.1 - (if p.2 == i then 1 else 0)).abs > tol).map fun p =>
    (p.2, p.1, if p.2 == i then 1 else 0)

/-- `row · P`. -/
def rowTimes (row : List Float) (P : Matrix) : List Float :=
  (Matrix.productRow ⟨1, row.length, row.toArray, false, defaultName⟩ P 0).toList

/-- Checks the restriction rows against the prolongation. -/
def checkRestriction (e : Element) (tol : Float) : Outcome Unit := do
  let s := e.store
  let n := s.dofsPerCell.toNat
  let children := List.range s.cell.childrenPerCell
  let withP := s.prolongationIsImplemented
  let R ← children.mapM fun (c : Nat) => s.restrictionMatrix c
  let P ← if withP then children.mapM fun (c : Nat) => s.prolongationMatrix c else pure []
  for i in List.range n do
    let additive := s.additive.getD i false
    let mut sum := List.replicate n (0 : Float)
    let mut contributing := 0
    for c in children do
      let row := (R.getD c .empty).getRow i
      if maxAbs row == 0 then continue
      contributing := contributing + 1
      if !withP then continue
      let rp := rowTimes row (P.getD c .empty)
      if additive then sum := List.zipWith (· + ·) sum rp
      else if let some (j, v, want) := offIdentity rp i tol then
        report (.nonAdditiveRow s.name i c j v want)
    if !additive then
      if contributing != 1 then report (.contributingChildren s.name i contributing)
      continue
    if withP then
      if let some (j, v, want) := offIdentity sum i tol then
        report (.additiveRow s.name i j v want)

/-- Checks concatenation (unless the element has no support points) and restriction. -/
def checkTransferLaws (e : Element) (tol : Float) : Outcome Unit := do
  let s := e.store
  if s.prolongationIsImplemented then
    match e.checkConcatenation with
    | .error (.reported (.noSupportPoints _)) => pure ()
    | r => r
  if s.restrictionIsImplemented then e.checkRestriction tol

/-- The constraint rows of the refined dofs on face line `fl`: its midpoint, then the half-line
at its start, then the one at its end. -/
def lineConstraintRows (fd : DofLayout) (fl : Nat) : List Nat :=
  let dv := fd.dofsPerVertex.toNat
  let dl := fd.dofsPerLine.toNat
  (List.range dv).map (fun d => dv + fl * dv + d) ++
    [0, 1].flatMap fun h => (List.range dl).map fun d => 5 * dv + 4 * dl + (2 * fl + h) * dl + d

/-- The nonzero weights of a constraint row, keyed by the cell dof of each column on a face,
keys increasing. -/
def cellWeights (s : Store) (C : Matrix) (face r : Nat) : Outcome (List (Nat × Float)) := do
  let entries ← ((C.getRow r).zipIdx.filter fun p => p.1 != 0).mapM fun p => do
    let k ← s.faceToCellIndex p.2 face
    return (k, p.1)
  return Constraint.sortByKey entries

/-- Whether two weight maps have the same keys with equal weights. -/
def sameWeights (a b : List (Nat × Float)) : Bool :=
  a.length == b.length && a.all fun p => match b.lookup p.1 with
    | some w => p.2 == w
    | none => false

/-- Checks that the two faces on every line of a 3D cell constrain the line's refined dofs alike. -/
def checkSharedLineConstraints (e : Element) : Outcome Unit := do
  let s := e.store
  let fd := s.layout
  if fd.dim != 3 || fd.dofsPerFace == 0 || !s.entityOrdered || !s.constraintsAreImplemented then
    return
  let C ← s.interfaceConstraints
  for l in List.range s.cell.linesPerCell do
    let (f0, f1) ← liftCell (s.cell.facesSharingLine l)
    let weightsOn (f : Nat) : Outcome (List (List (Nat × Float))) := do
      let fl := ((Hypercube.cubeFaceLines.getD f []).findIdx? (· == l)).getD 0
      (lineConstraintRows fd fl).mapM (cellWeights s C f)
    let w0 ← weightsOn f0
    let w1 ← weightsOn f1
    for (a, k) in w0.zipIdx do
      let b := w1.getD k []
      if !sameWeights a b then report (.sharedLineWeights s.name l k f0 a f1 b)

end FiniteElements.Element
