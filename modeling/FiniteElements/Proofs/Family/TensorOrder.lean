import FiniteElements.Proofs.Family.Restriction
import FiniteElements.Proofs.Composite.Transfer

/-!
# Tensor-product transfer matrices in the support-point order

The discontinuous element numbers its `(N+1)^d` dofs lexicographically, `x` fastest: dof `i` sits
at the node whose coordinate `k` is node `i_k` of the interval, `i_k` digit `k` of `i` in base
`N + 1`. Its transfer matrices to child `c` are built axis by axis as Kronecker products of the
interval's matrices, `m1D b_0` first and each next axis multiplied on the left, `b_k` the bits of
the child.

This file shows that the two orders agree. The Kronecker product puts the left factor on the high
digits of its row and column indices (`Matrix.kronecker_eq_ok`), so after the chain of products
entry `(i, j)` of a child's matrix is the product over the axes of `m1D b_k` at digits `k` of `i`
and `j`, with axis `d - 1` outermost: the exact nesting of the floating-point products,
`m[b_{d-1}] * (… * (m[b_1] * m[b_0]))`, not only its value up to rounding.

## Main definitions

* `FiniteElements.Family.digit`, `FiniteElements.Family.nestedProduct`
* `FiniteElements.Family.tensorEntry`, `FiniteElements.Family.ChildTensorMatrix`

## Main results

* `Matrix.kronecker_eq_ok`: shape and entries of a Kronecker product.
* `Family.foldlM_kronecker_eq_ok`: the chain of Kronecker products over the axes.
* `Family.tensorize_digit_order`: every child's matrix, and the support points in the same order.
-/

set_option autoImplicit false

namespace FiniteElements.Dense.Matrix

/-- **The Kronecker product** of two matrices with storage, whose product has room for its entries,
multiplies their shapes, and its entry `(i, j)` is `a[i / rb][j / cb] · b[i % rb][j % cb]`. -/
theorem kronecker_eq_ok (a b : Matrix) (ha : 0 < a.rows ∧ 0 < a.cols)
    (hb : 0 < b.rows ∧ 0 < b.cols) (hroom : a.rows * b.rows * (a.cols * b.cols) ≤ 2 ^ 45) :
    ∃ K, a.kronecker b = .ok K ∧ K.rows = a.rows * b.rows ∧ K.cols = a.cols * b.cols ∧
      ∀ i < K.rows, ∀ j < K.cols,
        K.get i j = a.get (i / b.rows) (j / b.cols) * b.get (i % b.rows) (j % b.cols) := by
  have hr : 0 < a.rows * b.rows := Nat.mul_pos ha.1 hb.1
  have hc : 0 < a.cols * b.cols := Nat.mul_pos ha.2 hb.2
  -- each dimension is at most the room, so neither wraps as a machine word
  have hrw : Numeric.wrapWord ((a.rows : Int) * b.rows) = ((a.rows * b.rows : Nat) : Int) := by
    rw [← Nat.cast_mul, Numeric.wrapWord_natCast
      (lt_of_le_of_lt (le_trans (Nat.le_mul_of_pos_right _ hc) hroom) (by norm_num))]
  have hcw : Numeric.wrapWord ((a.cols : Int) * b.cols) = ((a.cols * b.cols : Nat) : Int) := by
    rw [← Nat.cast_mul, Numeric.wrapWord_natCast
      (lt_of_le_of_lt (le_trans (Nat.le_mul_of_pos_left _ hr) hroom) (by norm_num))]
  have hzeros := zeros_of_pos (r := ((a.rows * b.rows : Nat) : Int))
    (c := ((a.cols * b.cols : Nat) : Int)) (by exact_mod_cast hr) (by exact_mod_cast hc)
    (by exact_mod_cast hroom)
  unfold kronecker
  rw [hrw, hcw, hzeros]
  simp only [bind, Except.bind, pure, Except.pure, Except.ok.injEq, exists_eq_left']
  simp only [Int.toNat_natCast, true_and]
  intro i hi j hj
  -- position `i · cols + j` of the row-major entries is row `i`, column `j`
  have hp : i * (a.cols * b.cols) + j < a.rows * b.rows * (a.cols * b.cols) :=
    Element.mul_add_lt_mul hi hj
  have hdiv : (i * (a.cols * b.cols) + j) / (a.cols * b.cols) = i := by
    rw [Nat.mul_comm, Nat.mul_add_div (by omega), Nat.div_eq_of_lt hj, Nat.add_zero]
  rw [get]
  simp only [Array.getD_eq_getD_getElem?, Array.getElem?_map, List.getElem?_toArray,
    List.getElem?_range hp, Option.map_some, Option.getD_some, hdiv, Nat.mul_add_mod_of_lt hj]

end FiniteElements.Dense.Matrix

namespace FiniteElements.Cell.Hypercube

theorem one_le_dim (c : Hypercube) : 1 ≤ c.dim := by
  cases c <;> decide

end FiniteElements.Cell.Hypercube

namespace FiniteElements.Element

/-- A map over `0, …, n - 1` whose every step succeeds with a value meeting `P` succeeds, with a
value meeting `P` at every position. -/
theorem mapM_range_eq_ok {ε β : Type} {f : Nat → Except ε β} {P : Nat → β → Prop} {n : Nat}
    (h : ∀ x < n, ∃ y, f x = .ok y ∧ P x y) :
    ∃ ys, (List.range n).mapM f = .ok ys ∧ ys.length = n ∧ ∀ x (hx : x < ys.length), P x ys[x] := by
  obtain ⟨ys, hys⟩ := exists_mapM_eq_ok fun x hx =>
    (h x (List.mem_range.1 hx)).imp fun _ => And.left
  have hlen : ys.length = n := by rw [length_eq_of_mapM_eq_ok hys, List.length_range]
  refine ⟨ys, hys, hlen, fun x hx => ?_⟩
  obtain ⟨y, hy, hP⟩ := h x (hlen ▸ hx)
  have hx' : x < (List.range n).length := by rwa [List.length_range, ← hlen]
  have hat := getElem_of_mapM_eq_ok hys hx' hx
  rw [List.getElem_range, hy, Except.ok.injEq] at hat
  exact hat ▸ hP

end FiniteElements.Element

namespace FiniteElements.Family

open FiniteElements.Cell FiniteElements.Dense FiniteElements.Basis FiniteElements.Element

/-- Digit `k` of `i` in base `n`, digit `0` the least significant. -/
def digit (n i k : Nat) : Nat := i / n ^ k % n

/-- `f k * (f (k - 1) * (… * (f 1 * f 0)))`: the factors of axes `k` down to `0`, the highest
axis outermost. -/
def nestedProduct (f : Nat → Float) : Nat → Float
  | 0 => f 0
  | k + 1 => f (k + 1) * nestedProduct f k

/-- Entry `(i, j)` of the tensor product over axes `0, …, K` of the one-dimensional matrices
`m1D b_k`, `b_k` entry `k` of `bits`: their entries at digit `k` of `i` and of `j` in base `n`,
multiplied with the highest axis outermost. -/
def tensorEntry (m1D : Nat → Matrix) (bits : List Nat) (n K i j : Nat) : Float :=
  nestedProduct (fun k => (m1D (bits.getD k 0)).get (digit n i k) (digit n j k)) K

/-- `M` is the tensor-product matrix of child `child` of a cell of dimension `d`: it is
`n^d`-square, and its entry `(i, j)` is `tensorEntry` along the child's bits. -/
def ChildTensorMatrix (m1D : Nat → Matrix) (n d child : Nat) (M : Matrix) : Prop :=
  M.rows = n ^ d ∧ M.cols = n ^ d ∧
    ∀ i < n ^ d, ∀ j < n ^ d, M.entry i j = .ok (tensorEntry m1D (childBits d child) n (d - 1) i j)

section Digits

variable {n i l m : Nat}

theorem digit_zero_of_lt (h : i < n) : digit n i 0 = i := by
  simp [digit, Nat.mod_eq_of_lt h]

/-- Cutting `i` below digit `m` keeps its lower digits. -/
theorem digit_mod_pow (hl : l < m) : digit n (i % n ^ m) l = digit n i l := by
  obtain ⟨e, rfl⟩ : ∃ e, m = l + (e + 1) := ⟨m - l - 1, by omega⟩
  rw [digit, digit, Nat.pow_add, Nat.mod_mul_right_div_self,
    Nat.mod_mod_of_dvd _ (Dvd.intro_left _ (Nat.pow_succ n e).symm)]

/-- The top digit of a number with `m + 1` digits is its quotient by `n ^ m`. -/
theorem digit_of_lt_pow_succ (h : i < n ^ (m + 1)) : digit n i m = i / n ^ m := by
  have hpos : 0 < n ^ m := Nat.pos_of_ne_zero (by rintro h0; simp [Nat.pow_succ, h0] at h)
  exact Nat.mod_eq_of_lt ((Nat.div_lt_iff_lt_mul hpos).2 (by rwa [← Nat.pow_succ']))

end Digits

theorem nestedProduct_congr {f g : Nat → Float} : ∀ {K : Nat}, (∀ k ≤ K, f k = g k) →
    nestedProduct f K = nestedProduct g K
  | 0, h => h 0 le_rfl
  | K + 1, h => by
    rw [nestedProduct, nestedProduct, h (K + 1) le_rfl,
      nestedProduct_congr fun k hk => h k (Nat.le_succ_of_le hk)]

/-- Every bit of a child is `0` or `1`, also read past the last axis. -/
theorem getD_childBits_lt_two (d ch k : Nat) : (childBits d ch).getD k 0 < 2 := by
  rw [childBits, List.getD_eq_getElem?_getD, List.getElem?_map]
  cases (List.range d)[k]? with
  | none => simp
  | some a => simpa using Nat.mod_lt (ch / 2 ^ a) two_pos

/-- One more axis: the Kronecker product of an axis matrix with the tensor product of the axes
below it is the tensor product of one axis more. -/
theorem tensorEntry_succ {m1D : Nat → Matrix} {bits : List Nat} {n K i j : Nat}
    (hi : i < n ^ (K + 2)) (hj : j < n ^ (K + 2)) :
    tensorEntry m1D bits n (K + 1) i j =
      (m1D (bits.getD (K + 1) 0)).get (i / n ^ (K + 1)) (j / n ^ (K + 1)) *
        tensorEntry m1D bits n K (i % n ^ (K + 1)) (j % n ^ (K + 1)) := by
  rw [tensorEntry, nestedProduct, digit_of_lt_pow_succ hi, digit_of_lt_pow_succ hj, tensorEntry]
  congr 1
  exact nestedProduct_congr fun k hk => by
    rw [digit_mod_pow (Nat.lt_succ_of_le hk), digit_mod_pow (Nat.lt_succ_of_le hk)]

/-- **The Kronecker chain.** Starting from the matrix of axis `0` and taking the Kronecker
product with the matrix of each next axis on the left, `K` steps give the `n^(K+1)`-square tensor
product of axes `0, …, K`, entry by entry as `tensorEntry`. -/
theorem foldlM_kronecker_eq_ok {m1D : Nat → Matrix} {bits : List Nat} {n : Nat} (hn : 0 < n)
    (hm : ∀ k, (m1D (bits.getD k 0)).rows = n ∧ (m1D (bits.getD k 0)).cols = n) :
    ∀ K : Nat, (n ^ (K + 1)) ^ 2 ≤ 2 ^ 45 → ∃ M, (List.range K).foldlM
        (fun (M : Matrix) k => liftMatrix ((m1D (bits.getD (k + 1) 0)).kronecker M))
        (m1D (bits.getD 0 0)) = .ok M ∧
      M.rows = n ^ (K + 1) ∧ M.cols = n ^ (K + 1) ∧
      ∀ i < n ^ (K + 1), ∀ j < n ^ (K + 1), M.get i j = tensorEntry m1D bits n K i j
  | 0, _ => by
    refine ⟨m1D (bits.getD 0 0), rfl, by rw [(hm 0).1, Nat.zero_add, Nat.pow_one],
      by rw [(hm 0).2, Nat.zero_add, Nat.pow_one], fun i hi j hj => ?_⟩
    rw [tensorEntry, nestedProduct, digit_zero_of_lt (by simpa using hi),
      digit_zero_of_lt (by simpa using hj)]
  | K + 1, hroom => by
    -- the smaller product of the axes below has room too
    have hroomK : (n ^ (K + 1)) ^ 2 ≤ 2 ^ 45 :=
      le_trans (Nat.pow_le_pow_left (Nat.pow_le_pow_right hn (Nat.le_succ _)) 2) hroom
    obtain ⟨M, hM, hrows, hcols, hget⟩ := foldlM_kronecker_eq_ok hn hm K hroomK
    have hpos : 0 < n ^ (K + 1) := Nat.pow_pos hn
    have hsq : n * n ^ (K + 1) = n ^ (K + 2) := (Nat.pow_succ' ..).symm
    obtain ⟨P, hP, hProws, hPcols, hPget⟩ :=
      Matrix.kronecker_eq_ok (m1D (bits.getD (K + 1) 0)) M
        (by rw [(hm _).1, (hm _).2]; exact ⟨hn, hn⟩) (by rw [hrows, hcols]; exact ⟨hpos, hpos⟩)
        (by rw [(hm _).1, (hm _).2, hrows, hcols, hsq, ← Nat.pow_two]; exact hroom)
    refine ⟨P, ?_, by rw [hProws, (hm _).1, hrows, hsq], by rw [hPcols, (hm _).2, hcols, hsq],
      fun i hi j hj => ?_⟩
    · rw [List.range_succ, List.foldlM_append, hM]
      simp only [List.foldlM_cons, List.foldlM_nil]
      exact bind_eq_ok.2 ⟨M, rfl, bind_eq_ok.2 ⟨P, mapError_eq_ok.2 hP, rfl⟩⟩
    · rw [hPget i (by rwa [hProws, (hm _).1, hrows, hsq]) j
          (by rwa [hPcols, (hm _).2, hcols, hsq]),
        hrows, hcols, hget _ (Nat.mod_lt _ hpos) _ (Nat.mod_lt _ hpos), tensorEntry_succ hi hj]

/-- **Tensor-product matrices follow the support-point order.** Given one-dimensional matrices
for the `N + 1` dofs of an interval, every child's matrix is `(N+1)^d`-square, and its entry
`(i, j)` is the product over the axes `k` of the entries of the matrix of the child's bit `b_k` at
digit `k` of `i` and of `j` in base `N + 1`, axis `d - 1` outermost; digit `k` of `i` is also the
index of the node at coordinate `k` of the support point of dof `i`. -/
theorem tensorize_digit_order {c : Hypercube} {N : Nat} {m1D : Nat → Matrix}
    (hshape : ∀ b < 2, (m1D b).rows = N + 1 ∧ (m1D b).cols = N + 1)
    (hroom : ((N + 1) ^ c.dim) ^ 2 ≤ 2 ^ 45) :
    (∃ Ms, tensorize c m1D = .ok Ms ∧ Ms.length = c.childrenPerCell ∧
      ∀ (child : Nat) (hc : child < Ms.length), ChildTensorMatrix m1D (N + 1) c.dim child Ms[child]) ∧
      ∀ i, discontinuousSupportPoint c N i =
        (List.range c.dim).map fun k => (Lagrange.ofDegree N).nodes.getD (digit (N + 1) i k) 0 := by
  refine ⟨?_, fun i => rfl⟩
  have hd : c.dim - 1 + 1 = c.dim := Nat.sub_add_cancel (Hypercube.one_le_dim c)
  unfold tensorize
  refine mapM_range_eq_ok fun child _ => ?_
  have hbits : ((List.range c.dim).map fun k => child / Nat.pow 2 k % 2) = childBits c.dim child :=
    rfl
  -- every bit is `0` or `1`, so every axis matrix has the interval's shape
  have hm : ∀ k, (m1D ((childBits c.dim child).getD k 0)).rows = N + 1 ∧
      (m1D ((childBits c.dim child).getD k 0)).cols = N + 1 := fun k =>
    hshape _ (getD_childBits_lt_two c.dim child k)
  obtain ⟨M, hM, hrows, hcols, hget⟩ :=
    foldlM_kronecker_eq_ok (Nat.succ_pos N) hm (c.dim - 1) (by rwa [hd])
  rw [hd] at hrows hcols hget
  have hne : M.isEmpty = false := by
    simp [Matrix.isEmpty, hrows, hcols]
  refine ⟨M.copy, ?_, ?_⟩
  · simp only [hbits, hM, bind, Except.bind, pure, Except.pure]
  · refine ⟨by rw [Matrix.copy_of_isEmpty_false hne, hrows],
      by rw [Matrix.copy_of_isEmpty_false hne, hcols], fun i hi j hj => ?_⟩
    rw [Matrix.entry_copy, Matrix.entry_of_lt hne (hrows ▸ hi) (hcols ▸ hj), hget i hi j hj]

/-- The trilinear discontinuous element's one-dimensional prolongations have the interval's
shape, so its eight children's prolongations are tensor products in the support-point order. -/
theorem tensorize_digit_order_trilinear :
    (∀ b < 2, (prolongation1D 1 b).rows = 1 + 1 ∧ (prolongation1D 1 b).cols = 1 + 1) ∧
      ((1 + 1) ^ Hypercube.cube.dim) ^ 2 ≤ 2 ^ 45 ∧
      ∃ Ms, tensorize .cube (prolongation1D 1) = .ok Ms ∧ Ms.length = 8 := by
  have hshape : ∀ b < 2, (prolongation1D 1 b).rows = 1 + 1 ∧ (prolongation1D 1 b).cols = 1 + 1 :=
    by decide
  have hroom : ((1 + 1) ^ Hypercube.cube.dim) ^ 2 ≤ 2 ^ 45 := by decide
  exact ⟨hshape, hroom, (tensorize_digit_order hshape hroom).1.imp fun _ h => ⟨h.1, h.2.1⟩⟩

end FiniteElements.Family
