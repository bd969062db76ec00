import FiniteElements.Element.Error

/-!
# Constraint sets

A constraint set collects constraint lines over a fixed index space of `rows × cols`: a line says
that the constrained row equals a weighted sum of constraining columns. A line is stored with its
columns increasing and only its nonzero weights; weights given twice for one column are summed in
the order given, starting from `+0`.

A row can be added again any number of times, as long as the weights agree exactly (IEEE `==`,
so a `NaN` weight never agrees): first every stored column is compared, in increasing order, with
the new sum for it (`0` when the new line omits it); then every column with a nonzero new sum and
no stored weight is refused, in increasing order. Adding a line again never changes the set, and
a refused addition leaves it as it was.

## Main definitions

* `FiniteElements.Constraint.ConstraintSet`, `ConstraintSet.addLine`
* `ConstraintSet.weight`, `ConstraintSet.line?`, `ConstraintSet.isConstrained`,
  `ConstraintSet.toDense`
-/

namespace FiniteElements.Constraint

open FiniteElements.Element

/-- Constraint lines over `rows × cols` indices: constrained rows increasing, each with its
columns increasing and their nonzero weights. -/
structure ConstraintSet where
  rows : Int
  cols : Int
  lines : List (Nat × List (Nat × Float)) := []
deriving Repr, Inhabited

/-- Adds `w` to the sum kept for column `c`, a new column starting from `+0`. -/
def accumulate (sums : List (Nat × Float)) (c : Nat) (w : Float) : List (Nat × Float) :=
  match sums with
  | [] => [(c, 0 + w)]
  | (d, s) :: rest => if d == c then (d, s + w) :: rest else (d, s) :: accumulate rest c w

/-- The sum kept for column `c`, `0` when none is. -/
def sumAt (sums : List (Nat × Float)) (c : Nat) : Float :=
  match sums.find? (·.1 == c) with
  | some p => p.2
  | none => 0

/-- Inserts `x` into a list sorted by its keys. -/
def insertByKey {α : Type} (x : Nat × α) : List (Nat × α) → List (Nat × α)
  | [] => [x]
  | y :: ys => if x.1 ≤ y.1 then x :: y :: ys else y :: insertByKey x ys

/-- A list sorted by its keys, stably. -/
def sortByKey {α : Type} (xs : List (Nat × α)) : List (Nat × α) := xs.foldr insertByKey []

namespace ConstraintSet

/-- The empty set over `rows × cols` indices. -/
def empty (rows cols : Int) : ConstraintSet := { rows, cols }

/-- The stored line of a row, if the row is constrained. -/
def find? (cs : ConstraintSet) (row : Nat) : Option (List (Nat × Float)) :=
  (cs.lines.find? (·.1 == row)).map (·.2)

/-- Whether the row is constrained. -/
def isConstrained (cs : ConstraintSet) (row : Int) : Bool :=
  0 ≤ row && (cs.find? row.toNat).isSome

/-- The number of constrained rows. -/
def count (cs : ConstraintSet) : Nat := cs.lines.length

/-- The stored weight of `(row, col)`, zero when there is none. -/
def storedWeight (cs : ConstraintSet) (row col : Nat) : Float :=
  match cs.find? row with
  | some line => sumAt line col
  | none => 0

/-- The summed weights of a new line, in the order the columns first appear, refusing a length
mismatch and columns out of range. -/
def sums (cs : ConstraintSet) (cols : List Int) (weights : List Float) :
    Except ElementError (List (Nat × Float)) := do
  if cols.length != weights.length then throw (.columnsWeights cols.length weights.length)
  (cols.zip weights).foldlM
    (fun acc (p : Int × Float) =>
      if 0 ≤ p.1 ∧ p.1 < cs.cols then .ok (accumulate acc p.1.toNat p.2)
      else .error (.indexRange .constrainingColumn p.1 cs.cols))
    []

/-- Checks a line given again against the stored one. -/
def agrees (row : Nat) (stored given : List (Nat × Float)) : Except ElementError Unit := do
  for (c, w) in stored do
    if sumAt given c != w then throw (.weightDiffers row c w (sumAt given c))
  for (c, w) in sortByKey given do
    if w != 0 && sumAt stored c == 0 then throw (.weightMissing row c w)

/-- Adds the line `row = Σ weights[k] · cols[k]`. -/
def addLine (cs : ConstraintSet) (row : Int) (cols : List Int) (weights : List Float) :
    Except ElementError ConstraintSet := do
  if ¬(0 ≤ row ∧ row < cs.rows) then throw (.indexRange .constrainedRow row cs.rows)
  let given ← cs.sums cols weights
  let r := row.toNat
  match cs.find? r with
  | some stored =>
    agrees r stored given
    return cs
  | none =>
    let line := sortByKey (given.filter fun p => p.2 != 0)
    return { cs with lines := insertByKey (r, line) cs.lines }

/-- The weight of `(row, col)`; both must be in range. -/
def weight (cs : ConstraintSet) (row col : Int) : Outcome Float := do
  let r ← checkIndex .constrainedRow row cs.rows
  let c ← checkIndex .constrainingColumn col cs.cols
  return cs.storedWeight r c

/-- The columns and weights of a row, empty when the row is not constrained. -/
def line? (cs : ConstraintSet) (row : Int) : List (Nat × Float) :=
  if row < 0 then [] else (cs.find? row.toNat).getD []

/-- The weights as a dense array of at least one row and one column, with the number of stored
weights. -/
def toDense (cs : ConstraintSet) : Nat × Nat × Nat × List (List Float) :=
  let r := max cs.rows 1 |>.toNat
  let c := max cs.cols 1 |>.toNat
  let stored := (cs.lines.map fun l => l.2.length).foldr (· + ·) 0
  (r, c, stored, (List.range r).map fun i => (List.range c).map fun j => cs.storedWeight i j)

end ConstraintSet

end FiniteElements.Constraint
