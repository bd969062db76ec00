import FiniteElements.Fault
import FiniteElements.Decimal.Notation
import FiniteElements.Numeric.Word

/-!
# Dense matrices

A `Matrix` is a row-major array of doubles with a shape, a name and a read-only flag. The matrix
without storage (`Matrix.empty`) has shape `0 × 0`; every allocated matrix has at least one row
and one column, and a new matrix of zeros at most `2^45` entries. A read-only matrix refuses every
write.

Products follow one fixed order of operations, so that their doubles are reproducible: entry
`(i, j)` of `A · B` starts at `+0` and adds `A[i][l] · B[l][j]` for `l` ascending, skipping the
`l` with `A[i][l] = 0`.

## Main definitions

* `FiniteElements.Dense.Matrix`, `Matrix.zeros`, `Matrix.ofData`, `Matrix.identity`.
* `Matrix.entry`, `Matrix.set`, `Matrix.setRow`, `Matrix.scale`, `Matrix.row`.
* `Matrix.mul`, `Matrix.kronecker`, `Matrix.equal`, `Matrix.equalApprox`.
* `Matrix.text`: rows in brackets, columns right-aligned to their widest entry.
-/

namespace FiniteElements.Dense

/-- Why a matrix operation has no result. -/
inductive MatrixError where
  /-- The data given for a new matrix does not have `rows · cols` entries. -/
  | allocationMismatch (rows cols : Int) (length : Nat)
  /-- A matrix with a zero dimension was asked for. -/
  | zeroLength
  /-- A matrix with a negative dimension was asked for. -/
  | negativeDimension
  /-- The shapes of the operands do not fit. -/
  | shapeMismatch
  /-- A row index outside the matrix. -/
  | rowAccess
  /-- A column index outside the matrix. -/
  | columnAccess
  /-- A row of the wrong length. -/
  | rowLength
  /-- A write to a read-only matrix. -/
  | readOnly (name : String)
  /-- Only square matrices have inverses. -/
  | notSquare (rows cols : Nat)
  /-- A zero pivot: the matrix has no inverse. -/
  | singular
  /-- A fault of plain data access. -/
  | fault (f : Fault)
deriving Repr, BEq, Inhabited

/-- The text of a matrix error. -/
def MatrixError.message : MatrixError → String
  | .allocationMismatch r c n =>
    s!"mismatch in allocation: NewMatrix nr,nc = {r},{c}, len(data[0]) = {n}"
  | .zeroLength => "mat: zero length in matrix dimension"
  | .negativeDimension => "mat: negative dimension"
  | .shapeMismatch => "mat: dimension mismatch"
  | .rowAccess => "mat: row index out of range"
  | .columnAccess => "mat: column index out of range"
  | .rowLength => "mat: row length mismatch"
  | .readOnly name => "attempt to write to a read only matrix named: \"" ++ name ++ "\""
  | .notSquare r c => s!"unable to invert, matrix is not square: {r} x {c}"
  | .singular => "unable to invert, matrix is singular"
  | .fault f => f.message

/-- The name a new matrix carries until it is made read-only under a name of its own. -/
def defaultName : String := "unnamed - hint: pass a variable name to SetReadOnly()"

/-- A dense matrix of doubles, row-major. -/
structure Matrix where
  rows : Nat
  cols : Nat
  entries : Array Float
  readOnly : Bool
  name : String
deriving Inhabited

namespace Matrix

/-- The matrix without storage. -/
def empty : Matrix := ⟨0, 0, #[], false, ""⟩

/-- A matrix is empty when one of its dimensions is zero. -/
def isEmpty (m : Matrix) : Bool := m.rows == 0 || m.cols == 0

/-- The shape `(rows, cols)`. -/
def dims (m : Matrix) : Nat × Nat := (m.rows, m.cols)

/-- The checks of a new allocation: both dimensions positive. -/
def checkShape (r c : Int) : Except MatrixError (Nat × Nat) :=
  if r ≤ 0 || c ≤ 0 then
    if r == 0 || c == 0 then .error .zeroLength else .error .negativeDimension
  else .ok (r.toNat, c.toNat)

/-- A new `r × c` matrix of zeros. Its storage is one list of `r · c` words, the product taken as
a machine word: a product that wraps below zero or lies past `Numeric.maxWords` cannot be
allocated, and stops the call before the dimensions are checked. -/
def zeros (r c : Int) : Except MatrixError Matrix := do
  if !Numeric.roomFits (Numeric.wrapWord (r * c)) then throw (.fault .negativeLength)
  let (r, c) ← checkShape r c
  return ⟨r, c, Array.replicate (r * c) 0, false, defaultName⟩

/-- A new `r × c` matrix holding `data` row by row. -/
def ofData (r c : Int) (data : List Float) : Except MatrixError Matrix := do
  if (data.length : Int) != r * c then throw (.allocationMismatch r c data.length)
  let (r, c) ← checkShape r c
  return ⟨r, c, data.toArray, false, defaultName⟩

/-- The matrix of a list of rows of equal length; no rows, or empty rows, give `empty`. -/
def ofRows (rows : List (List Float)) : Except MatrixError Matrix :=
  match rows with
  | [] => .ok empty
  | first :: _ =>
    if first.isEmpty then .ok empty else ofData rows.length first.length rows.flatten

/-- The `n × n` identity. -/
def identity (n : Int) : Except MatrixError Matrix := do
  let m ← zeros n n
  return { m with entries := (List.range (m.rows * m.cols)).toArray.map fun k =>
    if k / m.cols == k % m.cols then 1 else 0 }

/-- The `r × c` matrix with `f i j` at `(i, j)`, under the default name. It allocates nothing of its
own: the element families allocate the shape with `zeros` before they fill it. -/
def tabulate (r c : Nat) (f : Nat → Nat → Float) : Matrix :=
  ⟨r, c, ((List.range r).flatMap fun i => (List.range c).map fun j => f i j).toArray, false,
    defaultName⟩

/-- Entry `(i, j)` without checks, `0` outside. -/
def get (m : Matrix) (i j : Nat) : Float := m.entries.getD (i * m.cols + j) 0

/-- Row `i` without checks. -/
def getRow (m : Matrix) (i : Nat) : List Float := (List.range m.cols).map fun j => m.get i j

/-- All rows, top to bottom. -/
def toRows (m : Matrix) : List (List Float) := (List.range m.rows).map m.getRow

/-- The position of `(i, j)`, checking the row first and then the column. -/
def position (m : Matrix) (i j : Int) : Except MatrixError Nat := do
  if m.isEmpty then throw (.fault .noStorage)
  if i < 0 || i ≥ m.rows then throw .rowAccess
  if j < 0 || j ≥ m.cols then throw .columnAccess
  return i.toNat * m.cols + j.toNat

/-- Entry `(i, j)`. -/
def entry (m : Matrix) (i j : Int) : Except MatrixError Float := do
  let k ← m.position i j
  return m.entries.getD k 0

/-- Refuses writes to a read-only matrix. -/
def checkWritable (m : Matrix) : Except MatrixError Unit :=
  if m.readOnly then .error (.readOnly m.name) else .ok ()

/-- `m` with entry `(i, j)` replaced by `v`. -/
def set (m : Matrix) (i j : Int) (v : Float) : Except MatrixError Matrix := do
  m.checkWritable
  let k ← m.position i j
  return { m with entries := m.entries.set! k v }

/-- Entry `(i, j)` replaced without checks, for matrices under construction. -/
def put (m : Matrix) (i j : Nat) (v : Float) : Matrix :=
  { m with entries := m.entries.set! (i * m.cols + j) v }

/-- `m` with row `i` replaced by `row`, which must have `cols` entries. -/
def setRow (m : Matrix) (i : Int) (row : List Float) : Except MatrixError Matrix := do
  m.checkWritable
  if m.isEmpty then throw (.fault .noStorage)
  if i < 0 || i ≥ m.rows then throw .rowAccess
  if row.length != m.cols then throw .rowLength
  return (List.range m.cols).foldl (fun acc j => acc.put i.toNat j (row.getD j 0)) m

/-- Every entry multiplied by `a` (each `x` becomes `x * a`). -/
def scale (m : Matrix) (a : Float) : Except MatrixError Matrix := do
  if m.isEmpty then throw (.fault .noStorage)
  m.checkWritable
  return { m with entries := m.entries.map fun x => x * a }

/-- Scales a matrix under construction. -/
def scaleBy (m : Matrix) (a : Float) : Matrix := { m with entries := m.entries.map fun x => x * a }

/-- Row `i` as a list. -/
def row (m : Matrix) (i : Int) : Except MatrixError (List Float) := do
  if m.isEmpty then throw (.fault .noStorage)
  if i < 0 || i ≥ m.rows then throw .rowAccess
  return m.getRow i.toNat

/-- A writable copy with fresh storage and the default name; the empty matrix stays empty. -/
def copy (m : Matrix) : Matrix :=
  if m.isEmpty then empty else { m with readOnly := false, name := defaultName }

/-- Marks the matrix read-only, renaming it when a name is given. -/
def setReadOnly (m : Matrix) (name : Option String) : Matrix :=
  { m with readOnly := true, name := name.getD m.name }

/-- The read-only copy handed out for a stored matrix, under the stored matrix's name. -/
def readOnlyCopy (m : Matrix) : Matrix :=
  if m.isEmpty then m else m.copy.setReadOnly (some m.name)

/-- `y + a · b[l]` entry by entry, for row `l` of `b`. -/
def addRowTimes (a : Float) (b : Matrix) (l : Nat) (y : FloatArray) : FloatArray :=
  Nat.fold b.cols (fun j _ acc => acc.set! j (acc.get! j + a * b.get l j)) y

/-- Writing one entry keeps the size of a float array. -/
theorem size_setEntry (y : FloatArray) (j : Nat) (v : Float) : (y.set! j v).size = y.size := by
  cases y
  simp [FloatArray.set!, FloatArray.size]

/-- Adding a multiple of a row keeps the size of the accumulator. -/
theorem size_addRowTimes (a : Float) (b : Matrix) (l : Nat) (y : FloatArray) :
    (addRowTimes a b l y).size = y.size := by
  unfold addRowTimes
  generalize b.cols = n
  induction n with
  | zero => rfl
  | succ m ih => simp only [Nat.fold_succ, size_setEntry, ih]

/-- Row `i` of `a · b`: from zeros, for `l` ascending with `a[i][l] ≠ 0`, add `a[i][l] · b[l]`. -/
def productRow (a b : Matrix) (i : Nat) : Array Float :=
  (Nat.fold a.cols
    (fun l _ acc =>
      let v := a.get i l
      if v != 0 then addRowTimes v b l acc else acc)
    ⟨Array.replicate b.cols 0⟩).data

/-- A row of a product has one entry per column of the right factor. -/
theorem size_productRow (a b : Matrix) (i : Nat) : (productRow a b i).size = b.cols := by
  unfold productRow
  suffices h : ∀ n, (Nat.fold n (fun l (_ : l < n) (acc : FloatArray) =>
      let v := a.get i l
      if v != 0 then addRowTimes v b l acc else acc)
      ⟨Array.replicate b.cols 0⟩).size = b.cols from h a.cols
  intro n
  induction n with
  | zero => simp [FloatArray.size]
  | succ m ih =>
    simp only [Nat.fold_succ]
    split <;> simp only [size_addRowTimes, ih]

/-- The product of two matrices with the fixed order of `productRow`. -/
def mul (a b : Matrix) : Except MatrixError Matrix := do
  let r ← zeros a.rows b.cols
  if a.cols != b.rows then throw .shapeMismatch
  return { r with entries := (List.range a.rows).foldl (fun acc i => acc ++ productRow a b i) #[] }

/-- The Kronecker product: entry `(i·rb + k, j·cb + l)` is `a[i][j] · b[k][l]`. Its shape is
asked for in machine words. -/
def kronecker (a b : Matrix) : Except MatrixError Matrix := do
  let r ← zeros (Numeric.wrapWord (a.rows * b.rows)) (Numeric.wrapWord (a.cols * b.cols))
  let entry (p : Nat) : Float :=
    let ri := p / r.cols
    let ci := p % r.cols
    a.get (ri / b.rows) (ci / b.cols) * b.get (ri % b.rows) (ci % b.cols)
  return { r with entries := (List.range (r.rows * r.cols)).toArray.map entry }

/-- Same shape and entries that compare equal (`NaN` equals nothing); two empty matrices are
equal and an empty one equals no other. -/
def equal (a b : Matrix) : Bool :=
  if a.isEmpty || b.isEmpty then a.isEmpty && b.isEmpty
  else a.rows == b.rows && a.cols == b.cols &&
    (List.range a.entries.size).all fun k => a.entries.getD k 0 == b.entries.getD k 0

/-- The smallest positive normal double, `2^-1022`. -/
def minNormal : Float := 2.2250738585072014e-308

/-- `a` and `b` agree within `tol` absolutely or relatively to the larger magnitude. -/
def closeEnough (a b tol : Float) : Bool :=
  if a == b then true
  else
    let delta := (a - b).abs
    if delta ≤ tol then true
    else if delta ≤ minNormal then delta ≤ tol * minNormal
    else delta / max a.abs b.abs ≤ tol

/-- Same shape and entries within `tol` (`closeEnough`). -/
def equalApprox (a b : Matrix) (tol : Float) : Bool :=
  if a.isEmpty || b.isEmpty then a.isEmpty && b.isEmpty
  else a.rows == b.rows && a.cols == b.cols &&
    (List.range a.entries.size).all fun k => closeEnough (a.entries.getD k 0) (b.entries.getD k 0) tol

/-- Text of one entry in a matrix picture: shortest digits, `+Inf`, `-Inf`, `NaN`. -/
def entryText (x : Float) : String := Decimal.floatText x

/-- `n` spaces. -/
def spaces (n : Nat) : String := String.ofList (List.replicate n ' ')

/-- The matrix drawn row by row between brackets (`[ ]` for one row, `⎡ ⎤`, `⎢ ⎥`, `⎣ ⎦` for
more), each column right-aligned to its widest entry, two spaces between columns; the empty
matrix is `[]`. -/
def text (m : Matrix) : String :=
  if m.isEmpty then "[]"
  else
    let cells := m.toRows.map (·.map entryText)
    let widths := (List.range m.cols).map fun j =>
      cells.foldl (fun w r => max w (r.getD j "").length) 0
    let line (r : List String) : String :=
      String.intercalate "  " ((List.range m.cols).map fun j =>
        let s := r.getD j ""
        spaces (widths.getD j 0 - s.length) ++ s)
    let framed := (List.range m.rows).map fun i =>
      let body := line (cells.getD i [])
      if m.rows == 1 then "[" ++ body ++ "]"
      else if i == 0 then "⎡" ++ body ++ "⎤"
      else if i + 1 < m.rows then "⎢" ++ body ++ "⎥"
      else "⎣" ++ body ++ "⎦"
    String.intercalate "\n" framed

end Matrix

end FiniteElements.Dense
