import FiniteElements.Proofs.Family.Restriction
import FiniteElements.Proofs.Numeric.Product
import FiniteElements.Proofs.Constraint.Verdict
import FiniteElements.Proofs.Element.Construction
import FiniteElements.Proofs.Basis.LagrangeValues

/-!
# Interface constraints of continuous elements

The interface constraints of the continuous element of degree `N` evaluate the coarse face's
basis at the nodes of the refined face. Their rows are the refined nodes in units of `1/(2N)` of
the face, listed object by object (centre, midpoints of the face lines, the four interior lines,
the eight half-lines, the four child faces), and their columns the coarse nodes in units of `1/N`
(vertices, line interiors, face interior). There are exactly as many of each as the constraint
layout of the element's dofs asks for (`length_constraintRows_cube`,
`continuousDefinition_constraintsSize`).

On each of the four lines of the face, the consistency check reads the refined rows of the line
and the coarse columns of the line in line-local order. The `k`-th row of line `l` lies on `l` at
the same distance from the line's start as the `k`-th row of line `0`
(`getElem?_constraintRows_lineRow`), the `p`-th column likewise
(`getElem?_constraintColumns_lineColumn`), and every other column lies off the line
(`not_onFaceLine_of_ne_lineColumn`). So where the Lagrange basis is one at its own end node and a
zero at the others (`EndValues`) and finite at the refined nodes (`FiniteAtHalves`), a weight on
line `l` is the weight of the same coarse dof at the same distance on line `0`, and the weights
off the line are zeros: the matrix passes the check (`linesEqual_continuousConstraints`,
`consistentAlongLines_continuous`), and the element of every degree whose dofs fit a machine word
is built (`continuous_isOk`).

## Main definitions

* `FiniteElements.Family.facePoint`, `OnFaceLine`, `refinedDistance`, `coarseDistance`
* `FiniteElements.Family.EndValues`, `FiniteAtHalves`

## Main results

* `FiniteElements.Family.length_constraintRows_cube`, `length_constraintColumns_cube`
* `FiniteElements.Family.getElem?_constraintRows_lineRow`,
  `getElem?_constraintColumns_lineColumn`, `not_onFaceLine_of_ne_lineColumn`
* `FiniteElements.Family.linesEqual_continuousConstraints`, `consistentAlongLines_continuous`
* `FiniteElements.Family.continuousDefinition_constraintsSize`, `continuous_isOk`
* `FiniteElements.Family.continuousConstraints_consistent`
-/

namespace FiniteElements.Family

set_option autoImplicit false

open FiniteElements.Cell FiniteElements.Dense FiniteElements.Element FiniteElements.Constraint
  FiniteElements.Basis FiniteElements.Numeric

section Sizes

variable (N : Nat)

theorem length_constraintRows_square :
    (constraintRows 2 N).length = 1 + 2 * (N - 1) := by
  simp [constraintRows]
  omega

theorem length_constraintColumns_square (hN : 1 ≤ N) :
    (constraintColumns 2 N).length = N + 1 := by
  simp [constraintColumns]
  omega

theorem length_constraintRows_cube :
    (constraintRows 3 N).length = 5 + 12 * (N - 1) + 4 * (N - 1) ^ 2 := by
  simp [constraintRows, List.length_flatMap, length_interiorPairs]
  ring

theorem length_constraintColumns_cube :
    (constraintColumns 3 N).length = 4 + 4 * (N - 1) + (N - 1) ^ 2 := by
  simp [constraintColumns, List.length_flatMap, length_interiorPairs]
  ring

end Sizes

section FaceLines

/-- The point at distance `t` from the start of line `l` of a face, in units of `1/S` of the face:
lines `0` and `1` run along `v` at `u = 0` and `u = S`, lines `2` and `3` along `u` at `v = 0`
and `v = S`. -/
def facePoint (S l t : Nat) : Nat × Nat :=
  match l with
  | 0 => (0, t)
  | 1 => (S, t)
  | 2 => (t, 0)
  | _ => (t, S)

/-- The point `x`, in units of `1/S` of the face, lies on line `l` of the face. -/
def OnFaceLine (S l : Nat) (x : Nat × Nat) : Prop :=
  match l with
  | 0 => x.1 = 0
  | 1 => x.1 = S
  | 2 => x.2 = 0
  | _ => x.2 = S

/-- The distance, in units of `1/(2N)`, of refined dof `k` of a face line from the line's start:
its midpoint, then the half-line at the start, then the one at the end. -/
def refinedDistance (N k : Nat) : Nat := if k = 0 then N else if k < N then k else k + 1

/-- The distance, in units of `1/N`, of coarse dof `p` of a face line from the line's start: its
start vertex, its end vertex, then its interior. -/
def coarseDistance (N p : Nat) : Nat := if p = 0 then 0 else if p = 1 then N else p - 1

variable {N : Nat}

theorem constraintRows_cube : constraintRows 3 N =
    [(N, N), (0, N), (2 * N, N), (N, 0), (N, 2 * N)] ++
      (((List.range (N - 1)).map (· + 1)).map (fun k => (N, k)) ++
        ((List.range (N - 1)).map (· + 1)).map (fun k => (N, N + k)) ++
        ((List.range (N - 1)).map (· + 1)).map (fun k => (k, N)) ++
        ((List.range (N - 1)).map (· + 1)).map (fun k => (N + k, N))) ++
      ((List.range 4).flatMap fun l => [0, 1].flatMap fun h =>
        ((List.range (N - 1)).map (· + 1)).map fun k => facePoint (2 * N) l (h * N + k)) ++
      ((List.range 4).flatMap fun q =>
        (interiorPairs N).map fun (i, j) => (q % 2 * N + i, q / 2 * N + j)) := by
  simp only [constraintRows, show (3 == 2) = false from rfl, show (3 == 3) = true from rfl,
    Bool.false_eq_true, if_false, if_true]
  rfl

/-- The row of refined dof `e + 1` of face line `l`, past the face centre, the line midpoints
and the interior lines. -/
theorem getElem?_constraintRows_halfLine {l e : Nat} (hl : l < 4) (he : e < 2 * (N - 1)) :
    (constraintRows 3 N)[5 + 4 * (N - 1) + (l * (2 * (N - 1)) + e)]? =
      some (facePoint (2 * N) l (refinedDistance N (e + 1))) := by
  have hhalf : ∀ l', ([0, 1].flatMap fun h => ((List.range (N - 1)).map (· + 1)).map fun k =>
      facePoint (2 * N) l' (h * N + k)).length = 2 * (N - 1) := fun _ => by
    simp
    omega
  have hblock := getElem?_flatMap_range_of_length hhalf hl he
  rw [sum_range_const] at hblock
  have hlt := mul_add_lt_mul hl he
  rw [constraintRows_cube, List.getElem?_append_left (by simp [List.length_flatMap]; omega),
    List.getElem?_append_right (by simp; omega)]
  simp only [List.length_append, List.length_cons, List.length_nil, List.length_map,
    List.length_range]
  rw [show 5 + 4 * (N - 1) + (l * (2 * (N - 1)) + e) -
      (0 + 1 + 1 + 1 + 1 + 1 + (N - 1 + (N - 1) + (N - 1) + (N - 1))) =
        l * (2 * (N - 1)) + e by omega, hblock]
  simp only [List.flatMap_cons, List.flatMap_nil, List.append_nil]
  -- the half-line at the start holds the first `N - 1` dofs, the one at the end the others
  by_cases hside : e < N - 1
  · rw [List.getElem?_append_left (by simpa using hside)]
    simp [hside, refinedDistance, show e + 1 < N by omega]
  · rw [List.getElem?_append_right (by simp; omega)]
    simp only [List.length_map, List.length_range]
    rw [List.getElem?_map, List.getElem?_map, List.getElem?_range (by omega)]
    simp only [Option.map_some, refinedDistance, if_neg (show e + 1 ≠ 0 by omega),
      if_neg (show ¬ e + 1 < N by omega)]
    congr 2
    omega

/-- **The rows of a face line**: refined dof `k` of line `l` is the refined node at distance
`refinedDistance N k` from the line's start. -/
theorem getElem?_constraintRows_lineRow {l k : Nat} (hl : l < 4) (hk : k < 1 + 2 * (N - 1)) :
    (constraintRows 3 N)[lineRow 1 (N - 1) l k]? =
      some (facePoint (2 * N) l (refinedDistance N k)) := by
  rcases Nat.eq_zero_or_pos k with rfl | hk0
  · -- the line's midpoint, among the face centre and the four midpoints
    rw [constraintRows_cube, List.getElem?_append_left (by simp [lineRow]; omega),
      List.getElem?_append_left (by simp [lineRow]; omega),
      List.getElem?_append_left (by simp [lineRow]; omega)]
    interval_cases l <;> rfl
  · have hrow : lineRow 1 (N - 1) l k = 5 + 4 * (N - 1) + (l * (2 * (N - 1)) + (k - 1)) := by
      simp only [lineRow, if_neg (show ¬ k < 1 by omega)]
      ring_nf
    rw [hrow, getElem?_constraintRows_halfLine hl (by omega), show k - 1 + 1 = k by omega]

theorem constraintColumns_cube : constraintColumns 3 N =
    (List.range 4).map (fun v => (v % 2 * N, v / 2 * N)) ++
      ((List.range 4).flatMap fun l =>
        ((List.range (N - 1)).map (· + 1)).map fun j => facePoint N l j) ++
      (interiorPairs N).map (fun (i, j) => (i, j)) := by
  simp only [constraintColumns, show (3 == 2) = false from rfl, show (3 == 3) = true from rfl,
    Bool.false_eq_true, if_false, if_true]
  rfl

theorem getElem?_constraintColumns_vertex {v : Nat} (hv : v < 4) :
    (constraintColumns 3 N)[v]? = some (v % 2 * N, v / 2 * N) := by
  rw [constraintColumns_cube, List.getElem?_append_left (by simp [List.length_flatMap]; omega),
    List.getElem?_append_left (by simpa using hv)]
  simp [hv]

theorem getElem?_constraintColumns_line {l e : Nat} (hl : l < 4) (he : e < N - 1) :
    (constraintColumns 3 N)[4 + (l * (N - 1) + e)]? = some (facePoint N l (e + 1)) := by
  have hline : ∀ l', (((List.range (N - 1)).map (· + 1)).map fun j => facePoint N l' j).length =
      N - 1 := fun _ => by simp
  have hblock := getElem?_flatMap_range_of_length hline hl he
  rw [sum_range_const] at hblock
  have hlt := mul_add_lt_mul hl he
  rw [constraintColumns_cube, List.getElem?_append_left (by simp [List.length_flatMap]; omega),
    List.getElem?_append_right (by simp), List.length_map, List.length_range,
    show 4 + (l * (N - 1) + e) - 4 = l * (N - 1) + e by omega, hblock]
  simp [he]

theorem getElem?_constraintColumns_interior {e : Nat} (he : e < (N - 1) ^ 2) :
    (constraintColumns 3 N)[4 + 4 * (N - 1) + e]? = some ((interiorPairs N).getD e (0, 0)) := by
  rw [constraintColumns_cube, List.getElem?_append_right (by simp [List.length_flatMap]; omega)]
  simp only [List.length_append, List.length_map, List.length_range, List.length_flatMap,
    sum_range_const, List.getElem?_map]
  rw [show 4 + 4 * (N - 1) + e - (4 + 4 * (N - 1)) = e by omega, getElem?_interiorPairs he]
  rfl

/-- **The columns of a face line**: coarse dof `p` of line `l` is the coarse node at distance
`coarseDistance N p` from the line's start. -/
theorem getElem?_constraintColumns_lineColumn {l p : Nat} (hl : l < 4) (hp : p < N + 1) :
    (constraintColumns 3 N)[lineColumn 1 (N - 1) l p]? =
      some (facePoint N l (coarseDistance N p)) := by
  rcases lt_or_ge p 2 with hp2 | hp2
  · -- the line's two ends are vertices of the face
    have hends : ∀ l' < 4, (faceLineEnds.getD l' (0, 0)).1 < 4 ∧
        (faceLineEnds.getD l' (0, 0)).2 < 4 := by decide
    have hcol : lineColumn 1 (N - 1) l p = if p = 0 then (faceLineEnds.getD l (0, 0)).1
        else (faceLineEnds.getD l (0, 0)).2 := by
      simp only [lineColumn]
      split_ifs <;> omega
    rw [hcol]
    split_ifs with h0
    · rw [getElem?_constraintColumns_vertex (hends l hl).1]
      interval_cases l <;> simp [faceLineEnds, facePoint, coarseDistance, h0]
    · rw [getElem?_constraintColumns_vertex (hends l hl).2]
      interval_cases l <;> simp [faceLineEnds, facePoint, coarseDistance, show p = 1 by omega]
  · have hcol : lineColumn 1 (N - 1) l p = 4 + (l * (N - 1) + (p - 2)) := by
      simp only [lineColumn, if_neg (show ¬ p < 1 by omega), if_neg (show ¬ p < 2 * 1 by omega)]
      omega
    rw [hcol, getElem?_constraintColumns_line hl (by omega), coarseDistance,
      if_neg (show p ≠ 0 by omega), if_neg (show p ≠ 1 by omega), show p - 2 + 1 = p - 1 by omega]

/-- **Every other column lies off the line**: a coarse node on face line `l` is one of the line's
columns. -/
theorem not_onFaceLine_of_ne_lineColumn {l j : Nat} (hN : 1 ≤ N) (hl : l < 4)
    (hj : j < (constraintColumns 3 N).length) (hne : ∀ p < N + 1, lineColumn 1 (N - 1) l p ≠ j) :
    ¬ OnFaceLine N l ((constraintColumns 3 N).getD j (0, 0)) := by
  rw [length_constraintColumns_cube] at hj
  rw [List.getD_eq_getElem?_getD]
  rcases lt_or_ge j 4 with hv | hv
  · -- a vertex lies on a line only as one of its two ends, which are the line's first columns
    rw [getElem?_constraintColumns_vertex hv, Option.getD_some]
    have h0 := hne 0 (by omega)
    have h1 := hne 1 (by omega)
    interval_cases l <;> interval_cases j <;>
      simp [OnFaceLine, lineColumn, faceLineEnds] at h0 h1 ⊢ <;> omega
  rcases lt_or_ge j (4 + 4 * (N - 1)) with hline | hline
  · -- a line interior lies only on its own line, where it is one of the line's columns
    have hN1 : 0 < N - 1 := by omega
    obtain ⟨l', e, hl', he, rfl⟩ : ∃ l' e, l' < 4 ∧ e < N - 1 ∧ j = 4 + (l' * (N - 1) + e) :=
      ⟨(j - 4) / (N - 1), (j - 4) % (N - 1), Nat.div_lt_of_lt_mul (by omega),
        Nat.mod_lt _ hN1, by rw [Nat.div_add_mod']; omega⟩
    rw [getElem?_constraintColumns_line hl' he, Option.getD_some]
    by_cases hsame : l' = l
    · subst hsame
      intro _
      refine hne (e + 2) (by omega) ?_
      simp only [lineColumn, if_neg (show ¬ e + 2 < 1 by omega),
        if_neg (show ¬ e + 2 < 2 * 1 by omega)]
      omega
    · interval_cases l <;> interval_cases l' <;> simp [OnFaceLine, facePoint] at hsame ⊢ <;> omega
  · -- a point inside the face lies on no line
    rw [show j = 4 + 4 * (N - 1) + (j - (4 + 4 * (N - 1))) by omega,
      getElem?_constraintColumns_interior (by omega), Option.getD_some]
    have hmem := mem_interiorPairs.1 (getD_mem_of_lt (0, 0)
      (show j - (4 + 4 * (N - 1)) < (interiorPairs N).length by
        rw [length_interiorPairs]; omega))
    interval_cases l <;> simp only [OnFaceLine] <;> omega

end FaceLines

section Weights

/-- The basis of degree `N` is one at its own end node and a zero, of either sign, at the other
end nodes: basis function `0` is one at `0`, basis function `N` is one at `1`, and every other
basis function is a zero there. -/
def EndValues (N : Nat) : Prop :=
  (Lagrange.ofDegree N).evalAt 0 0 = 1 ∧ (Lagrange.ofDegree N).evalAt N 1 = 1 ∧
    ∀ b ≤ N, (b ≠ 0 → ((Lagrange.ofDegree N).evalAt b 0 == 0) = true) ∧
      (b ≠ N → ((Lagrange.ofDegree N).evalAt b 1 == 0) = true)

/-- Every basis function of degree `N` is finite at the refined nodes `t / (2N)`. -/
def FiniteAtHalves (N : Nat) : Prop :=
  ∀ b ≤ N, ∀ t ≤ 2 * N, ((Lagrange.ofDegree N).evalAt b (rational t (2 * N))).isFinite = true

instance (N : Nat) : Decidable (EndValues N) := by
  unfold EndValues
  infer_instance

instance (N : Nat) : Decidable (FiniteAtHalves N) := by
  unfold FiniteAtHalves
  infer_instance

/-- The basis of every degree `1 ≤ N ≤ 200` is finite at the refined nodes. -/
theorem finiteAtHalves_of_le {N : Nat} (hN : 1 ≤ N) (h : N ≤ 200) : FiniteAtHalves N :=
  fun _ hb _ ht => isFinite_evalAt_rational hN h hb ht

variable {N : Nat}

theorem rows_continuousConstraints_cube :
    (continuousConstraints .cube N).rows = (constraintRows 3 N).length := rfl

theorem cols_continuousConstraints_cube :
    (continuousConstraints .cube N).cols = (constraintColumns 3 N).length := rfl

/-- Entry `(i, j)` of the cube's interface constraints is the tensor product coarse basis
function of column `j` at the refined node of row `i`, as a running product from `1`. -/
theorem get_continuousConstraints_cube {i j : Nat} (hi : i < (constraintRows 3 N).length)
    (hj : j < (constraintColumns 3 N).length) :
    (continuousConstraints .cube N).get i j =
      1 * (Lagrange.ofDegree N).evalAt ((constraintColumns 3 N).getD j (0, 0)).1
          (rational ((constraintRows 3 N).getD i (0, 0)).1 (2 * N)) *
        (Lagrange.ofDegree N).evalAt ((constraintColumns 3 N).getD j (0, 0)).2
          (rational ((constraintRows 3 N).getD i (0, 0)).2 (2 * N)) := by
  have hdim : Hypercube.cube.dim = 3 := rfl
  unfold continuousConstraints
  rw [if_neg (by decide), get_tabulate (by simpa [hdim] using hi) (by simpa [hdim] using hj)]
  simp only [hdim, List.size_toArray, dif_pos hi, dif_pos hj]
  rw [List.getD_eq_getElem _ _ hi, List.getD_eq_getElem _ _ hj]
  simp [Lagrange.tensorAt]

/-- Every coarse node of the face lies in `[0, N]²`. -/
theorem constraintColumns_le {x : Nat × Nat} (hx : x ∈ constraintColumns 3 N) :
    x.1 ≤ N ∧ x.2 ≤ N := by
  rw [constraintColumns_cube] at hx
  simp only [List.mem_append, List.mem_map, List.mem_range, List.mem_flatMap] at hx
  rcases hx with (⟨v, hv, rfl⟩ | ⟨l, hl, x', ⟨j, hj, rfl⟩, rfl⟩) | ⟨⟨a, b⟩, hab, rfl⟩
  · constructor <;> (interval_cases v <;> simp)
  · interval_cases l <;> simp [facePoint] <;> omega
  · have := mem_interiorPairs.1 hab
    simp only at this ⊢
    omega

theorem refinedDistance_lt {k : Nat} (hN : 1 ≤ N) (hk : k < 1 + 2 * (N - 1)) :
    refinedDistance N k < 2 * N := by
  unfold refinedDistance
  split_ifs <;> omega

theorem refinedDistance_pos (hN : 1 ≤ N) (k : Nat) : 0 < refinedDistance N k := by
  unfold refinedDistance
  split_ifs <;> omega

theorem coarseDistance_le {p : Nat} (hp : p < N + 1) : coarseDistance N p ≤ N := by
  unfold coarseDistance
  split_ifs <;> omega

/-- Every distance along a coarse line is the distance of one of the line's coarse dofs: the
start vertex, the end vertex, or an interior node. -/
theorem exists_coarseDistance_eq {q : Nat} (hq : q ≤ N) : ∃ p < N + 1, coarseDistance N p = q := by
  rcases Nat.eq_zero_or_pos q with rfl | hq0
  · exact ⟨0, by omega, rfl⟩
  rcases hq.lt_or_eq with hlt | rfl
  · exact ⟨q + 1, by omega, by simp [coarseDistance]; omega⟩
  · exact ⟨1, by omega, by simp [coarseDistance]⟩

/-- The face's normal coordinates `0` and `1` on the refined face are the doubles `0` and `1`. -/
theorem rational_zero_two_mul (hN : 1 ≤ N) (hfit : 2 * N < 2 ^ 63) :
    rational ((0 : Nat) : Int) (2 * N) = 0 := by
  have h := rational_zero (N := 2 * N) (by omega) hfit
  push_cast at h
  exact h

theorem rational_two_mul_self (hN : 1 ≤ N) (hfit : 2 * N < 2 ^ 63) :
    rational ((2 * N : Nat) : Int) (2 * N) = 1 := by
  have h := rational_self (N := 2 * N) (by omega) hfit
  push_cast at h ⊢
  exact h

theorem float_beq_self {x : Float} (hx : x.toModel.unpack ≠ .notANumber) : (x == x) = true :=
  (float_beq_iff x x).2 ⟨hx, .inl rfl⟩

theorem ne_nan_of_beq_zero {x : Float} (hx : (x == 0) = true) : x.toModel.unpack ≠ .notANumber :=
  ((float_beq_iff x 0).1 hx).1

section Lines

variable (hN : 1 ≤ N) (hfit : 2 * N < 2 ^ 63) (hend : EndValues N) (hfin : FiniteAtHalves N)
include hN hfit hend hfin

/-- **The weights along a face line**: on every line of the face, refined dof `k` weighs coarse
dof `p` by the basis function of the coarse dof's distance at the refined dof's distance. -/
theorem get_lineRow_lineColumn {l k p : Nat} (hl : l < 4) (hk : k < 1 + 2 * (N - 1))
    (hp : p < N + 1) :
    (continuousConstraints .cube N).get (lineRow 1 (N - 1) l k) (lineColumn 1 (N - 1) l p) =
      (Lagrange.ofDegree N).evalAt (coarseDistance N p)
        (rational (refinedDistance N k : Nat) (2 * N)) := by
  have hrow := getElem?_constraintRows_lineRow (N := N) hl hk
  have hcol := getElem?_constraintColumns_lineColumn (N := N) hl hp
  rw [get_continuousConstraints_cube (List.getElem?_eq_some_iff.1 hrow).1
      (List.getElem?_eq_some_iff.1 hcol).1]
  simp only [List.getD_eq_getElem?_getD, hrow, hcol, Option.getD_some]
  have hW := hfin _ (coarseDistance_le hp) _ (refinedDistance_lt hN hk).le
  have hWn := ne_nan_of_isFinite hW
  have hone : (1 : Float) * 1 = 1 := by decide
  obtain ⟨h0, h1, -⟩ := hend
  -- the line's normal coordinate picks basis function `0` or `N` at its own end node
  interval_cases l <;>
    simp only [facePoint, rational_zero_two_mul hN hfit, rational_two_mul_self hN hfit, h0, h1,
      hone, one_mul_of_ne_nan hWn, mul_one_of_ne_nan hWn]

/-- **Off the line, the weights are zeros**: a refined dof of face line `l` weighs a coarse dof
off the line by a zero. -/
theorem get_lineRow_offLine {l k col : Nat} (hl : l < 4) (hk : k < 1 + 2 * (N - 1))
    (hcol : col < (constraintColumns 3 N).length)
    (hne : ∀ p < N + 1, lineColumn 1 (N - 1) l p ≠ col) :
    ((continuousConstraints .cube N).get (lineRow 1 (N - 1) l k) col == 0) = true := by
  have hrow := getElem?_constraintRows_lineRow (N := N) hl hk
  have hoff := not_onFaceLine_of_ne_lineColumn hN hl hcol hne
  have hle := constraintColumns_le (getD_mem_of_lt (0, 0) hcol)
  rw [get_continuousConstraints_cube (List.getElem?_eq_some_iff.1 hrow).1 hcol]
  rw [List.getD_eq_getElem?_getD (l := constraintRows 3 N), hrow, Option.getD_some]
  generalize (constraintColumns 3 N).getD col (0, 0) = x at hoff hle
  obtain ⟨c0, c1⟩ := x
  have ht := (refinedDistance_lt hN hk).le
  obtain ⟨-, -, hzero⟩ := hend
  -- the coordinate off the line picks a basis function that is a zero at the line's end node
  interval_cases l <;> simp only [OnFaceLine] at hoff <;>
    simp only [facePoint, rational_zero_two_mul hN hfit, rational_two_mul_self hN hfit]
  · have hZ := (hzero c0 hle.1).1 hoff
    rw [one_mul_of_ne_nan (ne_nan_of_beq_zero hZ)]
    exact mul_beq_zero_of_zero_left hZ (hfin c1 hle.2 _ ht)
  · have hZ := (hzero c0 hle.1).2 hoff
    rw [one_mul_of_ne_nan (ne_nan_of_beq_zero hZ)]
    exact mul_beq_zero_of_zero_left hZ (hfin c1 hle.2 _ ht)
  · have hW := hfin c0 hle.1 _ ht
    rw [one_mul_of_ne_nan (ne_nan_of_isFinite hW)]
    exact mul_beq_zero_of_zero_right hW ((hzero c1 hle.2).1 hoff)
  · have hW := hfin c0 hle.1 _ ht
    rw [one_mul_of_ne_nan (ne_nan_of_isFinite hW)]
    exact mul_beq_zero_of_zero_right hW ((hzero c1 hle.2).2 hoff)

/-- **The constraints agree along the face lines**, entry by entry. -/
theorem linesEqual_continuousConstraints :
    LinesEqual (continuousConstraints .cube N) 1 (N - 1) where
  offLine l hl k hk col hcol hne :=
    get_lineRow_offLine hN hfit hend hfin hl hk hcol fun p hp => hne p (by omega)
  equal l _ hl k hk p hp := by
    rw [get_lineRow_lineColumn hN hfit hend hfin hl hk (by omega),
      get_lineRow_lineColumn hN hfit hend hfin (by omega) hk (by omega)]
    exact float_beq_self (ne_nan_of_isFinite
      (hfin _ (coarseDistance_le (by omega)) _ (refinedDistance_lt hN hk).le))

end Lines

end Weights

section Building

variable {N : Nat} {c : Hypercube}

/-- **A transfer store accepts one square matrix per child** of the cell's dof count. -/
theorem storeTransfer_isOk {kind : Transfer} {mats : List Matrix} {fd : DofLayout} {n : Nat}
    (hlen : mats.length = c.childrenPerCell) (hn : 1 ≤ n)
    (hsq : ∀ m ∈ mats, m.rows = n ∧ m.cols = n) (hcells : fd.dofsPerCell = n) :
    ∃ R, storeTransfer kind mats fd c = .ok R := by
  have hkept : (mats.filter fun m => !m.isEmpty) = mats := by
    refine List.filter_eq_self.2 fun m hm => ?_
    simp [Matrix.isEmpty, (hsq m hm).1, (hsq m hm).2]
    omega
  have hchildren : 0 < c.childrenPerCell := Nat.two_pow_pos c.dim
  unfold storeTransfer
  simp only [hkept, hlen, bne_self_eq_false, Bool.or_false, Bool.false_eq_true, if_false]
  rw [if_neg (by simpa using hchildren.ne')]
  refine exists_mapM_eq_ok fun x hx => ?_
  obtain ⟨m, child⟩ := x
  have hm := List.fst_mem_of_mem_zipIdx hx
  simp only [hcells, (hsq m hm).1, (hsq m hm).2, bne_self_eq_false, Bool.or_false,
    Bool.false_eq_true, if_false]
  exact ⟨_, rfl⟩

/-- **The constraint matrix has the layout's constraint size** whenever the cell's dofs fit a
machine word: none on the interval, `1 + 2(N - 1)` by `N + 1` on the square and
`5 + 12(N - 1) + 4(N - 1)²` by `4 + 4(N - 1) + (N - 1)²` on the cube. -/
theorem continuousDefinition_constraintsSize (hN : 1 ≤ N) (hfit : (N + 1) ^ c.dim < 2 ^ 63)
    {d : Definition} (hd : continuousDefinition c N = .ok d) :
    ((d.constraints.rows : Int), (d.constraints.cols : Int)) = d.layout.constraintsSize := by
  obtain ⟨hw, hcnt, -, hfit'⟩ := layout_of_continuousDefinition hN hfit hd
  obtain ⟨-, -, -, -, -, -, hcons⟩ := continuousDefinition_eq_ok hd
  rw [hcons, constraintsSize_eq hw hfit']
  have h0 := hcnt 0 (Nat.zero_le _)
  rw [pow_zero] at h0
  cases c with
  | interval => rfl
  | square =>
    have h1 := hcnt 1 (by decide)
    have hrows : (continuousConstraints .square N).rows = (constraintRows 2 N).length := rfl
    have hcols : (continuousConstraints .square N).cols = (constraintColumns 2 N).length := rfl
    rw [hrows, hcols, length_constraintRows_square, length_constraintColumns_square N hN, h0, h1]
    simp only [pow_one, Prod.mk.injEq]
    omega
  | cube =>
    have h1 := hcnt 1 (by decide)
    have h2 := hcnt 2 (by decide)
    rw [rows_continuousConstraints_cube, cols_continuousConstraints_cube,
      length_constraintRows_cube, length_constraintColumns_cube, h0, h1, h2]
    simp only [Prod.mk.injEq]
    push_cast
    constructor <;> ring

/-- A cube whose dofs fit a machine word has fewer than `2^21` nodes on a line. -/
theorem lt_two_pow_of_cube_lt (hfit : (N + 1) ^ 3 < 2 ^ 63) : N + 1 < 2 ^ 21 := by
  rw [show (2 : Nat) ^ 63 = (2 ^ 21) ^ 3 by norm_num] at hfit
  exact (Nat.pow_lt_pow_iff_left (by decide)).1 hfit

/-- **The continuous cube's constraints pass the consistency check along face lines**, where
its basis has its end values and is finite at the refined nodes. -/
theorem consistentAlongLines_continuous (hN : 1 ≤ N) (hfit : (N + 1) ^ 3 < 2 ^ 63)
    (hend : EndValues N) (hfin : FiniteAtHalves N) {d : Definition}
    (hd : continuousDefinition .cube N = .ok d) :
    consistentAlongLines d.layout d.constraints = .ok () := by
  obtain ⟨hw, hcnt, -, -⟩ := layout_of_continuousDefinition (c := .cube) hN hfit hd
  have hline := lt_two_pow_of_cube_lt hfit
  have h3 : d.layout.dim = 3 := by
    have := Hypercube.dim_of_ofDim? hw.cell
    simpa [Hypercube.dim] using this.symm
  -- one dof on each vertex and `N - 1` on each line
  have hv : d.layout.dofsPerVertex = ((1 : Nat) : Int) := by
    have h := hcnt 0 (by decide)
    rw [pow_zero] at h
    exact h
  have hl : d.layout.dofsPerLine = ((N - 1 : Nat) : Int) := by
    have h := hcnt 1 (by decide)
    rw [pow_one] at h
    exact h
  have hrows := length_constraintRows_cube N
  have hcols := length_constraintColumns_cube N
  have hne : (continuousConstraints .cube N).isEmpty = false := by
    simp [Matrix.isEmpty, rows_continuousConstraints_cube, cols_continuousConstraints_cube, hrows,
      hcols]
  obtain ⟨-, -, -, -, -, -, hcons⟩ := continuousDefinition_eq_ok hd
  rw [hcons]
  refine (consistentAlongLines_eq_ok h3 hne hv hl ?_ ?_ ?_).2
    ⟨⟨by omega, by omega⟩, linesAgree_iff_linesEqual.2
      (linesEqual_continuousConstraints hN (by omega) hend hfin)⟩
  · rw [rows_continuousConstraints_cube, hrows]
    omega
  · rw [cols_continuousConstraints_cube, hcols]
    omega
  · omega

/-- **The constraint store accepts the continuous element's constraints** on every cell whose
dofs fit a machine word; on the cube, where its basis has its end values and is finite at the
refined nodes. -/
theorem storeConstraints_continuous (hN : 1 ≤ N) (hfit : (N + 1) ^ c.dim < 2 ^ 63)
    (hlines : c = .cube → EndValues N ∧ FiniteAtHalves N) {d : Definition}
    (hd : continuousDefinition c N = .ok d) :
    ∃ C, storeConstraints d.constraints d.layout = .ok C := by
  have hcons : consistentAlongLines d.layout d.constraints = .ok () := by
    obtain ⟨-, -, hdim, -⟩ := DofLayout.wf_of_ofCounts? (continuousDefinition_eq_ok hd).1
    cases c with
    | interval => exact consistentAlongLines_of_dim_ne (by rw [hdim]; decide)
    | square => exact consistentAlongLines_of_dim_ne (by rw [hdim]; decide)
    | cube => exact consistentAlongLines_continuous hN hfit (hlines rfl).1 (hlines rfl).2 hd
  unfold storeConstraints
  rw [← continuousDefinition_constraintsSize hN hfit hd]
  cases d.constraints.isEmpty <;>
    simp [hcons, bind, Except.bind, pure, Except.pure]

theorem length_continuousProlongation (nodes : List (List Nat)) :
    (continuousProlongation c N nodes).length = c.childrenPerCell := by
  simp [continuousProlongation]

theorem square_of_mem_continuousProlongation {nodes : List (List Nat)} {m : Matrix}
    (hm : m ∈ continuousProlongation c N nodes) : m.rows = nodes.length ∧ m.cols = nodes.length := by
  simp only [continuousProlongation, List.mem_map] at hm
  obtain ⟨-, -, rfl⟩ := hm
  exact ⟨rfl, rfl⟩

theorem length_continuousRestriction (nodes : List (List Nat)) :
    (continuousRestriction c N nodes).length = c.childrenPerCell := by
  simp [continuousRestriction_eq]

theorem square_of_mem_continuousRestriction {nodes : List (List Nat)} {m : Matrix}
    (hm : m ∈ continuousRestriction c N nodes) : m.rows = nodes.length ∧ m.cols = nodes.length := by
  simp only [continuousRestriction_eq, List.mem_map] at hm
  obtain ⟨-, -, rfl⟩ := hm
  exact ⟨rfl, rfl⟩

/-- The cube's transfer matrices fit exactly up to degree `180`: `181^6 ≤ 2^45 < 182^6`. -/
theorem room_cube_iff : ((N + 1) ^ 3) ^ 2 ≤ 2 ^ 45 ↔ N ≤ 180 := by
  rw [← pow_mul, show 3 * 2 = 6 by rfl]
  constructor
  · intro hroom
    by_contra h
    have h182 : 182 ^ 6 ≤ (N + 1) ^ 6 := Nat.pow_le_pow_left (by omega) 6
    have : (2 : Nat) ^ 45 < 182 ^ 6 := by norm_num
    omega
  · intro h
    have h181 : (N + 1) ^ 6 ≤ 181 ^ 6 := Nat.pow_le_pow_left (by omega) 6
    have : (181 : Nat) ^ 6 ≤ 2 ^ 45 := by norm_num
    omega

theorem cube_fits (h : N ≤ 180) : (N + 1) ^ 3 < 2 ^ 63 :=
  fits_of_room (room_cube_iff.2 h)

/-- **The continuous element is built** on every cell whose transfer matrices fit the room of an
allocation; on the cube, where its basis has its end values. -/
theorem continuous_isOk (hN : 1 ≤ N) (hroom : ((N + 1) ^ c.dim) ^ 2 ≤ 2 ^ 45)
    (hend : c = .cube → EndValues N) :
    ∃ e, continuous c.dim N = .ok e := by
  have hfit : (N + 1) ^ c.dim < 2 ^ 63 := fits_of_room hroom
  -- the basis of a buildable cube is finite at the refined nodes
  have hlines : c = .cube → EndValues N ∧ FiniteAtHalves N := fun hc =>
    ⟨hend hc, finiteAtHalves_of_le hN (le_trans (room_cube_iff.1 (by subst hc; exact hroom))
      (by norm_num))⟩
  obtain ⟨d, hd, -⟩ := continuousDefinition_layout hN hroom
  obtain ⟨hw, -, hcells, hfit'⟩ := layout_of_continuousDefinition hN hfit hd
  obtain ⟨hfd, hname, hadd, hmasks, hpro, hres, -⟩ := continuousDefinition_eq_ok hd
  obtain ⟨-, -, -, -, -, hcomp, -⟩ := DofLayout.wf_of_ofCounts? hfd
  have hone : 1 ≤ (N + 1) ^ c.dim := Nat.one_le_pow _ _ (by omega)
  have hdofs : ((d.layout.dofsPerCell.toNat : Nat) : Int) = d.layout.dofsPerCell := by
    rw [hcells, Int.toNat_natCast]
  -- both transfers hold one square matrix of the node count per child
  have hlen := length_continuousNodes (c := c) hN
  have hnodes : d.layout.dofsPerCell = ((continuousNodes c N).length : Int) := by
    rw [hlen, hcells]
  have hprolong : ∃ p, storeTransfer .prolongation d.prolongation d.layout c = .ok p := by
    rw [hpro]
    exact storeTransfer_isOk (length_continuousProlongation _) (hlen ▸ hone)
      (fun _ hm => square_of_mem_continuousProlongation hm) hnodes
  have hrestrict : ∃ r, storeTransfer .restriction d.restriction d.layout c = .ok r := by
    rw [hres]
    exact storeTransfer_isOk (length_continuousRestriction _) (hlen ▸ hone)
      (fun _ hm => square_of_mem_continuousRestriction hm) hnodes
  have hcheck : d.check = .ok c := by
    refine Definition.check_eq_ok.2 ⟨hw.cell, hname, ?_, by rw [hcomp], ?_, ?_, fun m hm => ?_⟩
    · rw [hcells]
      exact_mod_cast hone
    · rw [hadd, List.length_replicate, hdofs]
    · rw [hmasks, List.length_replicate, hdofs]
    · rw [hmasks] at hm
      obtain rfl := List.eq_of_mem_replicate hm
      simp [Mask.size, Mask.count, hcomp]
  have hacc : d.Accepted c :=
    ⟨hcheck, hrestrict, hprolong, storeConstraints_continuous hN hfit hlines hd⟩
  obtain ⟨t, ht⟩ := defaultTables_isOk hw hfit' (by rw [hmasks, List.length_replicate, hdofs])
  obtain ⟨s, hs⟩ : ∃ s, Store.assemble d c t none = .ok s :=
    Store.assemble_isOk hacc (tabulateFaceDofs_geometric hw hfit')
  have hstore : Store.ofDefinition d = .ok s := by
    unfold Store.ofDefinition
    simp only [hcheck, ht, hs, Except.mapError, bind, Except.bind]
  refine ⟨.member (.continuous N) s, ?_⟩
  unfold continuous
  simp [Nat.one_le_iff_ne_zero.1 hN, Hypercube.ofDim?_dim, hd, hstore, Except.mapError, bind,
    Except.bind, pure, Except.pure]

/-- **The continuous element is refused** on every cell whose transfer matrices would hold more
than `2^45` entries, counted without a wrap: allocating the first of them stops the call. -/
theorem continuous_eq_error (hN : 1 ≤ N) (hbig : 2 ^ 45 < ((N + 1) ^ c.dim) ^ 2)
    (hwrap : ((N + 1) ^ c.dim) ^ 2 < 2 ^ 63) :
    continuous c.dim N = .error (.aborted (.matrix (.fault .negativeLength))) := by
  have hd := continuousDefinition_eq_error hN hbig hwrap
  unfold continuous
  simp [Nat.one_le_iff_ne_zero.1 hN, Hypercube.ofDim?_dim, hd, Except.mapError, bind,
    Except.bind]

end Building

section Consistency

/-- **The interface constraints of the continuous element are laid out as the consistency check
reads them.** For every degree `N ≥ 1`:

* the row and column lists have `1 + 2(N - 1)` and `N + 1` entries on the square and
  `5 + 12(N - 1) + 4(N - 1)²` and `4 + 4(N - 1) + (N - 1)²` on the cube, and on every cell whose
  dofs fit a machine word the matrix has the layout's constraint size;
* on the cube, the `k`-th refined row of face line `l` lies on `l` at the distance from the line's
  start at which the `k`-th row of line `0` lies on `0`, strictly inside the line;
* the `p`-th coarse column of line `l` lies on `l` at the distance at which the `p`-th column of
  line `0` lies on `0`, every coarse node of `l` is one of these columns, and every other column
  lies off `l`;
* so up to degree `180`, where the basis has its end values (it is finite at the refined nodes
  at every such degree), the constraints pass the consistency check and the element is built;
* from degree `181` on, as long as the count `(N + 1)^6` of a transfer matrix's entries does not
  wrap, the matrix is larger than one allocation holds and the element is refused. -/
theorem continuousConstraints_consistent {N : Nat} (hN : 1 ≤ N) :
    ((constraintRows 2 N).length = 1 + 2 * (N - 1) ∧ (constraintColumns 2 N).length = N + 1) ∧
    ((constraintRows 3 N).length = 5 + 12 * (N - 1) + 4 * (N - 1) ^ 2 ∧
      (constraintColumns 3 N).length = 4 + 4 * (N - 1) + (N - 1) ^ 2) ∧
    (∀ (c : Hypercube) (d : Definition), (N + 1) ^ c.dim < 2 ^ 63 →
      continuousDefinition c N = .ok d →
      ((d.constraints.rows : Int), (d.constraints.cols : Int)) = d.layout.constraintsSize) ∧
    (∀ l < 4, ∀ k < 1 + 2 * (N - 1), ∃ t, 0 < t ∧ t < 2 * N ∧
      (constraintRows 3 N)[lineRow 1 (N - 1) l k]? = some (facePoint (2 * N) l t) ∧
      (constraintRows 3 N)[lineRow 1 (N - 1) 0 k]? = some (facePoint (2 * N) 0 t)) ∧
    (∀ l < 4, ∀ p < N + 1, ∃ q ≤ N,
      (constraintColumns 3 N)[lineColumn 1 (N - 1) l p]? = some (facePoint N l q) ∧
      (constraintColumns 3 N)[lineColumn 1 (N - 1) 0 p]? = some (facePoint N 0 q)) ∧
    (∀ l < 4, ∀ q ≤ N, ∃ p < N + 1,
      (constraintColumns 3 N)[lineColumn 1 (N - 1) l p]? = some (facePoint N l q)) ∧
    (∀ l < 4, ∀ j < (constraintColumns 3 N).length, (∀ p < N + 1, lineColumn 1 (N - 1) l p ≠ j) →
      ¬ OnFaceLine N l ((constraintColumns 3 N).getD j (0, 0))) ∧
    (N ≤ 180 → EndValues N →
      (∀ d, continuousDefinition .cube N = .ok d →
        consistentAlongLines d.layout d.constraints = .ok ()) ∧
      ∃ e, continuous 3 N = .ok e) ∧
    (180 < N → ((N + 1) ^ 3) ^ 2 < 2 ^ 63 →
      continuous 3 N = .error (.aborted (.matrix (.fault .negativeLength)))) := by
  refine ⟨⟨length_constraintRows_square N, length_constraintColumns_square N hN⟩,
    ⟨length_constraintRows_cube N, length_constraintColumns_cube N⟩,
    fun c d hfit hd => continuousDefinition_constraintsSize hN hfit hd,
    fun l hl k hk => ⟨refinedDistance N k, refinedDistance_pos hN k, refinedDistance_lt hN hk,
      getElem?_constraintRows_lineRow hl hk, getElem?_constraintRows_lineRow (by omega) hk⟩,
    fun l hl p hp => ⟨coarseDistance N p, coarseDistance_le hp,
      getElem?_constraintColumns_lineColumn hl hp,
      getElem?_constraintColumns_lineColumn (by omega) hp⟩,
    fun l hl q hq => ?_,
    fun l hl j hj hne => not_onFaceLine_of_ne_lineColumn hN hl hj hne,
    fun h180 hend => ⟨fun d hd => consistentAlongLines_continuous hN (cube_fits h180) hend
      (finiteAtHalves_of_le hN (by omega)) hd,
      continuous_isOk (c := .cube) hN (room_cube_iff.2 h180) fun _ => hend⟩,
    fun h180 hwrap => continuous_eq_error (c := .cube) hN
      (lt_of_not_ge fun h => by have := room_cube_iff.1 h; omega) hwrap⟩
  -- every distance along the coarse line is the distance of one of its columns
  obtain ⟨p, hp, rfl⟩ := exists_coarseDistance_eq hq
  exact ⟨p, hp, getElem?_constraintColumns_lineColumn hl hp⟩

/-- The quadratic basis has its end values, so the quadratic cube element passes the consistency
check and is built; the cube element of degree `181` is refused. -/
theorem quadraticCube_consistent : 1 ≤ 2 ∧ 2 ≤ 180 ∧ EndValues 2 ∧
    (∀ d, continuousDefinition .cube 2 = .ok d →
      consistentAlongLines d.layout d.constraints = .ok ()) ∧
    (∃ e, continuous 3 2 = .ok e) ∧ 180 < 181 ∧ ((181 + 1) ^ 3) ^ 2 < 2 ^ 63 ∧
    continuous 3 181 = .error (.aborted (.matrix (.fault .negativeLength))) := by
  have hend : EndValues 2 := by decide +kernel
  obtain ⟨-, -, -, -, -, -, -, hbuilt, -⟩ :=
    continuousConstraints_consistent (N := 2) (by decide)
  obtain ⟨-, -, -, -, -, -, -, -, hrefused⟩ :=
    continuousConstraints_consistent (N := 181) (by decide)
  obtain ⟨hcheck, hok⟩ := hbuilt (by decide) hend
  exact ⟨by decide, by decide, hend, hcheck, hok, by decide, by norm_num,
    hrefused (by decide) (by norm_num)⟩

end Consistency

end FiniteElements.Family
