import FiniteElements.Dense.Matrix

/-!
# Inverses by LU factorisation

`Matrix.inverse` factors `P · A = L · U` by Gaussian elimination with partial pivoting (the pivot
is the first entry of largest magnitude), inverts `U` column by column, solves `X · L = U⁻¹` from
the last column to the first and undoes the row exchanges as column exchanges. A zero pivot
means the matrix is singular.

The doubles are reproducible because every sum is taken in one fixed order. Both inner products
below keep two partial sums from `+0`, one over the even positions and one over the odd positions
of the complete pairs; they differ in where an unpaired last term goes:

* `pairedDot` adds it to the odd sum before the two sums are added;
* `stripedDot` adds it to the total of the two sums;
* `evenDot` adds it to the even sum before the two sums are added.

Solving for the inverse takes the rows four and then two at a time with `stripedDot`; the lone
last row of an odd size takes `evenDot`.

## Main definitions

* `FiniteElements.Dense.pairedDot`, `FiniteElements.Dense.stripedDot`,
  `FiniteElements.Dense.evenDot`
* `FiniteElements.Dense.Matrix.inverse`
-/

namespace FiniteElements.Dense

/-- The even-position and odd-position sums over the complete pairs of a list, each from `+0`,
with the unpaired last term, if any. -/
def pairSums : List Float → Float → Float → Float × Float × Option Float
  | [], e, o => (e, o, none)
  | [a], e, o => (e, o, some a)
  | a :: b :: rest, e, o => pairSums rest (e + a) (o + b)

/-- `Σ xᵢ yᵢ`, the unpaired last term joining the odd sum. -/
def pairedDot (xs ys : List Float) : Float :=
  match pairSums (List.zipWith (· * ·) xs ys) 0 0 with
  | (e, o, none) => e + o
  | (e, o, some t) => e + (o + t)

/-- `Σ xᵢ yᵢ`, the unpaired last term added to the total of the two sums. -/
def stripedDot (xs ys : List Float) : Float :=
  match pairSums (List.zipWith (· * ·) xs ys) 0 0 with
  | (e, o, none) => e + o
  | (e, o, some t) => (e + o) + t

/-- `Σ xᵢ yᵢ`, the unpaired last term joining the even sum. -/
def evenDot (xs ys : List Float) : Float :=
  match pairSums (List.zipWith (· * ·) xs ys) 0 0 with
  | (e, o, none) => e + o
  | (e, o, some t) => (e + t) + o

/-- The smallest positive normal double, below which a pivot is divided by instead of inverted. -/
def safeMinimum : Float := 2.2250738585072014e-308

/-- A square array of doubles, row-major, under elimination. -/
structure Square where
  size : Nat
  entries : Array Float

namespace Square

/-- Entry `(i, j)`. -/
def get (s : Square) (i j : Nat) : Float := s.entries.getD (i * s.size + j) 0

/-- Entry `(i, j)` replaced. -/
def put (s : Square) (i j : Nat) (v : Float) : Square :=
  { s with entries := s.entries.set! (i * s.size + j) v }

/-- The positions `[a, b)`. -/
def span (a b : Nat) : List Nat := (List.range (b - a)).map (· + a)

/-- Rows `i` and `k` exchanged. -/
def swapRows (s : Square) (i k : Nat) : Square :=
  (List.range s.size).foldl (fun t j => (t.put i j (s.get k j)).put k j (s.get i j)) s

/-- Columns `j` and `k` exchanged. -/
def swapColumns (s : Square) (j k : Nat) : Square :=
  (List.range s.size).foldl (fun t i => (t.put i j (s.get i k)).put i k (s.get i j)) s

/-- The first row `i ≥ j` whose entry in column `j` has the largest magnitude. -/
def pivotRow (s : Square) (j : Nat) : Nat :=
  let best := (span (j + 1) s.size).foldl
    (fun (acc : Nat × Float) i =>
      let v := (s.get i j).abs
      if v > acc.2 then (i, v) else acc)
    (j, (s.get j j).abs)
  best.1

/-- Step `j` of the elimination: pivot, scale the column below the pivot, update the trailing
block by `a[i][k] + (-a[i][j]) · a[j][k]`. Returns whether the pivot was zero. -/
def eliminate (s : Square) (j : Nat) : Square × Nat × Bool :=
  let n := s.size
  let p := s.pivotRow j
  let zeroPivot := s.get p j == 0
  let s := if zeroPivot || p == j then s else s.swapRows j p
  let s :=
    if zeroPivot || j + 1 ≥ n then s
    else
      let aj := s.get j j
      if aj.abs ≥ safeMinimum then
        let r := 1 / aj
        (span (j + 1) n).foldl (fun t i => t.put i j (t.get i j * r)) s
      else
        (span (j + 1) n).foldl (fun t i => t.put i j (t.get i j / aj)) s
  let s :=
    if j + 1 ≥ n then s
    else
      (span (j + 1) n).foldl
        (fun t i =>
          let m := -(t.get i j)
          (span (j + 1) n).foldl (fun u k => u.put i k (u.get i k + m * u.get j k)) t)
        s
  (s, p, zeroPivot)

/-- The LU factorisation in place, with the pivot row of every step and whether some pivot was
zero. -/
def factor (s : Square) : Square × List Nat × Bool :=
  (List.range s.size).foldl
    (fun (acc : Square × List Nat × Bool) j =>
      let (t, p, z) := acc.1.eliminate j
      (t, acc.2.1 ++ [p], acc.2.2 || z))
    (s, [], false)

/-- Column `j` of `U⁻¹`, rows above the diagonal: multiplied by the leading block of `U⁻¹`
computed so far (row by row from the top, each from `a[i][i] · x_i` plus the paired inner product
of the rest), then scaled by the negated new diagonal entry. -/
def invertColumn (s : Square) (j : Nat) : Square :=
  let s := s.put j j (1 / s.get j j)
  let negDiag := -(s.get j j)
  let s := (List.range j).foldl
    (fun t i =>
      let rest := span (i + 1) j
      let dot := pairedDot (rest.map fun k => t.get k j) (rest.map fun k => t.get i k)
      t.put i j (t.get i i * t.get i j + dot))
    s
  (List.range j).foldl (fun t i => t.put i j (t.get i j * negDiag)) s

/-- `U⁻¹` in the upper triangle, `L` untouched below. -/
def invertUpper (s : Square) : Square := (List.range s.size).foldl invertColumn s

/-- Column `j` of the inverse: take the multipliers of `L` below the diagonal out of the column,
then subtract from every row its inner product of the later columns with them (`evenDot` for the
lone last row of an odd size, `stripedDot` for the others). -/
def solveColumn (s : Square) (j : Nat) : Square :=
  let n := s.size
  let later := span (j + 1) n
  let work := later.map fun i => s.get i j
  let s := later.foldl (fun t i => t.put i j 0) s
  if j + 1 ≥ n then s
  else
    (List.range n).foldl
      (fun t i =>
        let dot := if n % 2 == 1 && i + 1 == n then evenDot else stripedDot
        t.put i j (t.get i j + -(dot (later.map fun k => t.get i k) work)))
      s

/-- Solves `X · L = U⁻¹` from the last column to the first, then undoes the exchanges. -/
def solve (s : Square) (pivots : List Nat) : Square :=
  let n := s.size
  let s := (List.range n).reverse.foldl solveColumn s
  (List.range (n - 1)).reverse.foldl
    (fun t j =>
      let p := pivots.getD j j
      if p == j then t else t.swapColumns j p)
    s

end Square

/-- The inverse of a square matrix, as a new writable matrix. -/
def Matrix.inverse (m : Matrix) : Except MatrixError Matrix := do
  if m.rows != m.cols then throw (.notSquare m.rows m.cols)
  if m.isEmpty then throw (.fault .noStorage)
  let (lu, pivots, singular) := Square.factor ⟨m.rows, m.entries⟩
  if singular then throw .singular
  let inv := (lu.invertUpper).solve pivots
  return { m.copy with entries := inv.entries }

end FiniteElements.Dense
