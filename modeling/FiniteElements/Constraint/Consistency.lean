import FiniteElements.Constraint.Layout
import FiniteElements.Constraint.Set

/-!
# Consistency of interface constraints along face lines

A neighbour that shares only a line with a refined face computes the constraints of the refined
dofs on that line from its own face. Both agree when, on each of the four lines of a 3D face, the
refined dofs of the line (its midpoint, then its two half-lines) depend only on the coarse dofs of
the line (its start vertex, end vertex and interior), with the same weights on every line.

`consistentAlongLines` checks this by reading every refined row of every line in line-local
numbering into one constraint set: a weight off the line is refused, and a line whose weights
differ from those of an earlier line is refused by the set. Matrices of other dimensions pass.

## Main definitions

* `FiniteElements.Constraint.lineRows`, `FiniteElements.Constraint.lineColumns`
* `FiniteElements.Constraint.consistentAlongLines`
-/

namespace FiniteElements.Constraint

open FiniteElements.Element FiniteElements.Dense

/-- The start and end vertex of each line of a face, in the face's own numbering. -/
def faceLineEnds : List (Nat × Nat) := [(0, 2), (1, 3), (0, 1), (2, 3)]

/-- The integers `0, 1, …, n - 1`, none when `n` is not positive. -/
def upTo (n : Int) : List Int := (List.range n.toNat).map Int.ofNat

/-- The constraint rows of the refined dofs on face line `l`: its midpoint, then the half-line at
its start, then the one at its end. -/
def lineRows (dv dl : Int) (l : Nat) : List Int :=
  (upTo dv).map (fun d => dv + l * dv + d) ++
    ([0, 1].flatMap fun h => (upTo dl).map fun d => 5 * dv + 4 * dl + (2 * l + h) * dl + d)

/-- The constraint columns of the coarse dofs on face line `l`: its start vertex, its end vertex
and its interior. -/
def lineColumns (dv dl : Int) (l : Nat) : List Int :=
  let (a, b) := faceLineEnds.getD l (0, 0)
  ([a, b].flatMap fun (v : Nat) => (upTo dv).map fun d => v * dv + d) ++
    (upTo dl).map fun d => 4 * dv + l * dl + d

/-- The line-local position of a constraint column, the last one if it appears twice. -/
def localColumn (cols : List Int) (col : Int) : Option Nat :=
  (cols.zipIdx.reverse.find? (·.1 == col)).map (·.2)

/-- Row `row` of `C` in line-local numbering: for each local column its position and weight (both
zero where no column of `C` lands), or the error for a nonzero weight off the line. -/
def localRow (C : Matrix) (cols : List Int) (width : Int) (l : Nat) (row : Int) :
    Outcome (List Int × List Float) := do
  let start : List Int × List Float :=
    (List.replicate width.toNat 0, List.replicate width.toNat 0)
  (List.range C.cols).foldlM
    (fun (acc : List Int × List Float) (col : Nat) => do
      let w ← liftMatrix (C.entry row col)
      match localColumn cols col with
      | none => if w != 0 then report (.offLine row l w col) else pure acc
      | some lc =>
        if lc < width then pure (acc.1.set lc lc, acc.2.set lc w)
        else liftFault (.error (.indexOutOfRange lc width.toNat)))
    start

/-- Reads the refined rows of face line `l` into the set. The line's rows and columns are
collected in lists allocated with room for `dv + 2 dl` and `2 dv + dl` entries, machine words. -/
def addFaceLine (C : Matrix) (dv dl : Int) (cs : ConstraintSet) (l : Nat) :
    Outcome ConstraintSet := do
  let width := Numeric.wrapWord (2 * dv + dl)
  if !Numeric.roomFits (Numeric.wrapWord (dv + 2 * dl)) then liftFault (.error .capacityOutOfRange)
  if !Numeric.roomFits width then liftFault (.error .capacityOutOfRange)
  let cols := lineColumns dv dl l
  (lineRows dv dl l).zipIdx.foldlM
    (fun (cs : ConstraintSet) (p : Int × Nat) => do
      let (idx, ws) ← localRow C cols width l p.1
      match cs.addLine p.2 idx ws with
      | .ok cs => pure cs
      | .error e => report (.onFaceLine l p.1 e))
    cs

/-- Whether the constraints of a 3D layout depend, on each face line, only on the coarse dofs of
that line with the same weights on every line. -/
def consistentAlongLines (fd : DofLayout) (C : Matrix) : Outcome Unit := do
  if fd.dim != 3 || C.isEmpty then return
  let dv := fd.dofsPerVertex
  let dl := fd.dofsPerLine
  let cs := ConstraintSet.empty (Numeric.wrapWord (dv + 2 * dl)) (Numeric.wrapWord (2 * dv + dl))
  let _ ← (List.range 4).foldlM (addFaceLine C dv dl) cs

end FiniteElements.Constraint
