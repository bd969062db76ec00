import FiniteElements.Family.Factory

/-!
# Support points

The support point of a dof is the point of the unit cell where the dof sits: a node of a
Lagrange element, the centre of the face of a Raviart–Thomas flux. A composite's dof sits where
its base dof sits. An element given by its definition alone places no dof at a point.

The face support points are the support points of the dofs of face `0`, written in that face's
`(u, v)` frame; every face numbers its dofs alike, so they hold for every face.

## Main definitions

* `FiniteElements.Element.supportPoints`
* `FiniteElements.Element.faceSupportPoints`
-/

namespace FiniteElements.Element

open FiniteElements.Cell FiniteElements.Family


/-- The support point of every dof, in dof order. -/
def supportPoints : Element → Outcome (List (List Float))
  | .basic s => report (.noSupportPoints s.name)
  | .member (.continuous N) s =>
    pure ((List.range s.dofsPerCell.toNat).map (continuousSupportPoint s.cell N))
  | .member (.discontinuous N) s =>
    pure ((List.range s.dofsPerCell.toNat).map (discontinuousSupportPoint s.cell N))
  | .member .raviartThomas s =>
    (List.range s.dofsPerCell.toNat).mapM (raviartThomasSupportPoint s.cell)
  | .composite s _ bases _ => do
    let basePoints ← bases.mapM supportPoints
    (List.range s.dofsPerCell.toNat).mapM fun (i : Nat) => do
      let bi ← s.systemToBaseIndex i
      return (basePoints.getD bi.base []).getD bi.index []

/-- The support points of the dofs of face `0` in its `(u, v)` frame; none without face dofs. -/
def faceSupportPoints (e : Element) : Outcome (List (List Float)) := do
  let s := e.store
  if s.layout.dofsPerFace == 0 then return []
  let cellPoints ← e.supportPoints
  let (_, u, v) ← liftCell (s.cell.faceAxes 0)
  let tangents := [u, v].take (s.cell.dim - 1)
  (List.range s.layout.dofsPerFace.toNat).mapM fun (j : Nat) => do
    let k ← s.faceToCellIndex j 0
    let x := cellPoints.getD k []
    return tangents.map fun t => x.getD t.toNat 0

end FiniteElements.Element
