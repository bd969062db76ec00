import FiniteElements.Numeric.Ieee

/-!
# Eigenvalues of symmetric tridiagonal matrices

`Tridiagonal.eigen` computes the eigenvalues of a symmetric tridiagonal matrix and the first row
of its orthogonal matrix of eigenvectors by the implicit QL and QR iterations with Wilkinson-type
shifts (the method of the LAPACK routine `steqr`):

* the matrix splits where an off-diagonal entry is negligible next to its two diagonal
  neighbours; each unreduced block is iterated by QL when its last diagonal entry is at least as
  large as its first, else by QR;
* a `2 × 2` block is diagonalised directly (`eigen2`);
* every sweep chases the bulge with plane rotations (`rotation`) and applies them to the
  eigenvector row, at most `30 n` sweeps in all;
* at the end the eigenvalues are sorted increasingly by selection, carrying their eigenvector
  entries along.

Only the first row of the eigenvector matrix is kept: the rotations act on columns, so each row
evolves on its own, and the first row is all a quadrature rule needs.

## Main definitions

* `FiniteElements.Basis.rotation`, `FiniteElements.Basis.eigen2`
* `FiniteElements.Basis.Tridiagonal.eigen`
-/

namespace FiniteElements.Basis

open FiniteElements.Numeric

/-- `2^-53`, the relative rounding error of a double. -/
def roundoff : Float := 1.1102230246251565e-16

/-- `2^-1022`, the smallest positive normal double. -/
def smallestNormal : Float := 2.2250738585072014e-308

/-- A plane rotation `(c, s, r)` with `c · f + s · g = r` and `-s · f + c · g = 0`, `c ≥ 0`:
`(1, 0, f)` when `g = 0`, `(0, ±1, |g|)` when `f = 0`, otherwise `r` has the sign of `f`. Values
far from `1` in magnitude are scaled before squaring. -/
def rotation (f g : Float) : Float × Float × Float :=
  if g == 0 then (1, 0, f)
  else if f == 0 then (0, copySign 1 g, g.abs)
  else
    let safmax := 1 / smallestNormal
    let rtmin := smallestNormal.sqrt
    let rtmax := (safmax / 2).sqrt
    let f1 := f.abs
    let g1 := g.abs
    if rtmin < f1 && f1 < rtmax && rtmin < g1 && g1 < rtmax then
      let d := (f * f + g * g).sqrt
      let r := copySign d f
      (f1 / d, g / r, r)
    else
      let u := ieeeMin (ieeeMax smallestNormal (ieeeMax f1 g1)) safmax
      let fs := f / u
      let gs := g / u
      let d := (fs * fs + gs * gs).sqrt
      let r := copySign d f
      (fs.abs / d, gs / r, r * u)

/-- The eigensystem of `[[a, b], [b, c]]`: the eigenvalue of larger magnitude `rt1`, the other
`rt2`, and the unit eigenvector `(cs, sn)` of `rt1`. -/
def eigen2 (a b c : Float) : Float × Float × Float × Float :=
  let sm := a + c
  let df := a - c
  let adf := df.abs
  let tb := b + b
  let ab := tb.abs
  let (acmx, acmn) := if a.abs > c.abs then (a, c) else (c, a)
  let rt :=
    if adf > ab then adf * (1 + (ab / adf) * (ab / adf)).sqrt
    else if adf < ab then ab * (1 + (adf / ab) * (adf / ab)).sqrt
    else ab * (2 : Float).sqrt
  let (rt1, rt2, sgn1) :=
    if sm < 0 then
      let rt1 := 0.5 * (sm - rt)
      (rt1, (acmx / rt1) * acmn - (b / rt1) * b, (-1 : Int))
    else if sm > 0 then
      let rt1 := 0.5 * (sm + rt)
      (rt1, (acmx / rt1) * acmn - (b / rt1) * b, (1 : Int))
    else (0.5 * rt, -0.5 * rt, (1 : Int))
  let (cs, sgn2) := if df ≥ 0 then (df + rt, (1 : Int)) else (df - rt, (-1 : Int))
  let (cs1, sn1) :=
    if cs.abs > ab then
      let ct := -tb / cs
      let sn1 := 1 / (1 + ct * ct).sqrt
      (ct * sn1, sn1)
    else if ab == 0 then (1, 0)
    else
      let tn := -cs / tb
      let cs1 := 1 / (1 + tn * tn).sqrt
      (cs1, tn * cs1)
  let (cs1, sn1) := if sgn1 == sgn2 then (-sn1, cs1) else (cs1, sn1)
  (rt1, rt2, cs1, sn1)

/-- The state of the iteration: diagonal, off-diagonal, the eigenvector row and the number of
sweeps so far. -/
structure Tridiagonal where
  diag : Array Float
  off : Array Float
  row : Array Float
  sweeps : Nat

namespace Tridiagonal

/-- Diagonal entry `i`. -/
def d (t : Tridiagonal) (i : Int) : Float := t.diag.getD i.toNat 0
/-- Off-diagonal entry `i`. -/
def e (t : Tridiagonal) (i : Int) : Float := t.off.getD i.toNat 0
/-- Diagonal entry `i` replaced. -/
def setD (t : Tridiagonal) (i : Int) (v : Float) : Tridiagonal :=
  { t with diag := t.diag.set! i.toNat v }
/-- Off-diagonal entry `i` replaced. -/
def setE (t : Tridiagonal) (i : Int) (v : Float) : Tridiagonal :=
  { t with off := t.off.set! i.toNat v }

/-- The rotation `(c, s)` applied to columns `j` and `j + 1` of the eigenvector row; the identity
rotation is skipped. -/
def rotate (t : Tridiagonal) (j : Int) (c s : Float) : Tridiagonal :=
  if c != 1 || s != 0 then
    let a := t.row.getD j.toNat 0
    let b := t.row.getD (j + 1).toNat 0
    { t with row := (t.row.set! (j + 1).toNat (c * b - s * a)).set! j.toNat (s * b + c * a) }
  else t

/-- Most sweeps allowed per row of the matrix. -/
def sweepsPerRow : Nat := 30

/-- The first `m ≥ l` below `lend` whose off-diagonal entry is negligible for a QL step. -/
def splitBelow (t : Tridiagonal) (l lend : Int) : Int :=
  let eps2 := roundoff * roundoff
  let candidates := (List.range (lend - l).toNat).map fun (k : Nat) => l + k
  match candidates.find? fun m =>
      let v := (t.e m).abs
      v * v ≤ (eps2 * (t.d m).abs) * (t.d (m + 1)).abs + smallestNormal with
  | some m => m
  | none => lend

/-- The first `m ≤ l` above `lend` whose off-diagonal entry is negligible for a QR step. -/
def splitAbove (t : Tridiagonal) (l lend : Int) : Int :=
  let eps2 := roundoff * roundoff
  let candidates := (List.range (l - lend).toNat).map fun (k : Nat) => l - k
  match candidates.find? fun m =>
      let v := (t.e (m - 1)).abs
      v * v ≤ (eps2 * (t.d m).abs) * (t.d (m - 1)).abs + smallestNormal with
  | some m => m
  | none => lend

/-- One QL sweep on the block `[l, m]` with the shift from `d[l]`, returning the new state. -/
def sweepDown (t : Tridiagonal) (l m : Int) : Tridiagonal :=
  let p := t.d l
  let g0 := (t.d (l + 1) - p) / (2 * t.e l)
  let r0 := hypot g0 1
  let g := t.d m - p + t.e l / (g0 + copySign r0 g0)
  -- the bulge chase from `m - 1` down to `l`, recording the rotations
  let idx := (List.range (m - l).toNat).map fun (k : Nat) => m - 1 - k
  let (t, _, _, p, g, rots) := idx.foldl
    (fun (acc : Tridiagonal × Float × Float × Float × Float × List (Int × Float × Float)) i =>
      let (t, s, c, p, g, rots) := acc
      let f := s * t.e i
      let b := c * t.e i
      let (c, s, r) := rotation g f
      let t := if i != m - 1 then t.setE (i + 1) r else t
      let g := t.d (i + 1) - p
      let r := (t.d i - g) * s + 2 * c * b
      let p := s * r
      let t := t.setD (i + 1) (g + p)
      let g := c * r - b
      (t, s, c, p, g, rots ++ [(i, c, -s)]))
    (t, 1, 1, 0, g, [])
  -- rotations applied to the eigenvector row from the highest column pair down
  let t := rots.foldl (fun t (x : Int × Float × Float) => t.rotate x.1 x.2.1 x.2.2) t
  let t := t.setD l (t.d l - p)
  t.setE l g

/-- One QR sweep on the block `[m, l]` with the shift from `d[l]`. -/
def sweepUp (t : Tridiagonal) (l m : Int) : Tridiagonal :=
  let p := t.d l
  let g0 := (t.d (l - 1) - p) / (2 * t.e (l - 1))
  let r0 := hypot g0 1
  let g := t.d m - p + t.e (l - 1) / (g0 + copySign r0 g0)
  let idx := (List.range (l - m).toNat).map fun (k : Nat) => m + k
  let (t, _, _, p, g, rots) := idx.foldl
    (fun (acc : Tridiagonal × Float × Float × Float × Float × List (Int × Float × Float)) i =>
      let (t, s, c, p, g, rots) := acc
      let f := s * t.e i
      let b := c * t.e i
      let (c, s, r) := rotation g f
      let t := if i != m then t.setE (i - 1) r else t
      let g := t.d i - p
      let r := (t.d (i + 1) - g) * s + 2 * c * b
      let p := s * r
      let t := t.setD i (g + p)
      let g := c * r - b
      (t, s, c, p, g, rots ++ [(i, c, s)]))
    (t, 1, 1, 0, g, [])
  let t := rots.foldl (fun t (x : Int × Float × Float) => t.rotate x.1 x.2.1 x.2.2) t
  let t := t.setD l (t.d l - p)
  t.setE (l - 1) g

/-- QL iteration on the block `[l, lend]`, `l < lend`, until its entries from `l` on are
eigenvalues or the sweeps run out. -/
def iterateDown (limit : Nat) : Nat → Tridiagonal → Int → Int → Tridiagonal
  | 0, t, _, _ => t
  | fuel + 1, t, l, lend =>
    let m := if l != lend then t.splitBelow l lend else lend
    let t := if m < lend then t.setE m 0 else t
    if m == l then
      if l + 1 > lend then t else iterateDown limit fuel t (l + 1) lend
    else if m == l + 1 then
      let (rt1, rt2, c, s) := eigen2 (t.d l) (t.e l) (t.d (l + 1))
      let t := (((t.setD l rt1).setD (l + 1) rt2).rotate l c s).setE l 0
      if l + 2 > lend then t else iterateDown limit fuel t (l + 2) lend
    else if t.sweeps == limit then t
    else iterateDown limit fuel ({ t with sweeps := t.sweeps + 1 }.sweepDown l m) l lend

/-- QR iteration on the block `[lend, l]`, `lend < l`, until its entries down to `lend` are
eigenvalues or the sweeps run out. -/
def iterateUp (limit : Nat) : Nat → Tridiagonal → Int → Int → Tridiagonal
  | 0, t, _, _ => t
  | fuel + 1, t, l, lend =>
    let m := if l != lend then t.splitAbove l lend else lend
    let t := if m > lend then t.setE (m - 1) 0 else t
    if m == l then
      if l - 1 < lend then t else iterateUp limit fuel t (l - 1) lend
    else if m == l - 1 then
      let (rt1, rt2, c, s) := eigen2 (t.d (l - 1)) (t.e (l - 1)) (t.d l)
      let t := (((t.setD (l - 1) rt1).setD l rt2).rotate (l - 1) c s).setE (l - 1) 0
      if l - 2 < lend then t else iterateUp limit fuel t (l - 2) lend
    else if t.sweeps == limit then t
    else iterateUp limit fuel ({ t with sweeps := t.sweeps + 1 }.sweepUp l m) l lend

/-- The first `m ≥ l1` below the last row where the matrix splits: a zero off-diagonal entry, or
one not above `√|d_m| · √|d_{m+1}| · ε` (which is then set to zero). -/
def splitPoint (t : Tridiagonal) (l1 : Nat) : Tridiagonal × Nat :=
  let n := t.diag.size
  let candidates := (List.range (n - 1 - l1)).map (· + l1)
  let negligible (m : Nat) : Bool :=
    let test := (t.e m).abs
    test == 0 || test ≤ ((t.d m).abs.sqrt * (t.d (m + 1)).abs.sqrt) * roundoff
  match candidates.find? negligible with
  | some m => (if (t.e m).abs == 0 then t else t.setE m 0, m)
  | none => (t, n - 1)

/-- The largest magnitude among the diagonal entries `[l, lend]` and off-diagonal `[l, lend)`. -/
def blockNorm (t : Tridiagonal) (l lend : Nat) : Float :=
  let ds := (List.range (lend + 1 - l)).map fun (k : Nat) => (t.d (l + k)).abs
  let es := (List.range (lend - l)).map fun (k : Nat) => (t.e (l + k)).abs
  (ds ++ es).foldl (fun a x => if a < x || x != x then x else a) 0

/-- Works through the unreduced blocks from row `l1` on; `true` when every block converged. -/
def reduceBlocks (limit : Nat) : Nat → Tridiagonal → Nat → Tridiagonal × Bool
  | 0, t, _ => (t, false)
  | fuel + 1, t, l1 =>
    let n := t.diag.size
    if l1 + 1 > n then (t, true)
    else
      let t := if l1 > 0 then t.setE (l1 - 1) 0 else t
      let (t, m) := t.splitPoint l1
      if m == l1 then reduceBlocks limit fuel t (m + 1)
      else if t.blockNorm l1 m == 0 then reduceBlocks limit fuel t (m + 1)
      else
        let budget := limit + n + 2
        let t :=
          if (t.d m).abs < (t.d l1).abs then iterateUp limit budget t m l1
          else iterateDown limit budget t l1 m
        if t.sweeps ≥ limit then (t, false) else reduceBlocks limit fuel t (m + 1)

/-- Sorts the eigenvalues increasingly by selection, exchanging eigenvector entries along. -/
def sortValues (t : Tridiagonal) : Tridiagonal :=
  let n := t.diag.size
  (List.range (n - 1)).foldl
    (fun t i =>
      let (k, p) := (List.range (n - 1 - i)).foldl
        (fun (acc : Nat × Float) off =>
          let j := i + 1 + off
          if t.d j < acc.2 then (j, t.d j) else acc)
        (i, t.d i)
      if k != i then
        let zi := t.row.getD i 0
        let zk := t.row.getD k 0
        let t := (t.setD k (t.d i)).setD i p
        { t with row := (t.row.set! i zk).set! k zi }
      else t)
    t

/-- The eigenvalues, increasing, and the first row of the eigenvectors of the symmetric
tridiagonal matrix with diagonal `diag` and off-diagonal `off`; `none` when the iteration does
not converge within `30 n` sweeps. -/
def eigen (diag off : Array Float) : Option (Array Float × Array Float) :=
  let n := diag.size
  if n ≤ 1 then some (diag, diag.map fun _ => 1)
  else
    let start : Tridiagonal :=
      ⟨diag, off, (List.range n).toArray.map fun (k : Nat) => if k == 0 then 1 else 0, 0⟩
    let (t, ok) := reduceBlocks (sweepsPerRow * n) (n + 2) start 0
    if ok then
      let t := t.sortValues
      some (t.diag, t.row)
    else none

end Tridiagonal

end FiniteElements.Basis
