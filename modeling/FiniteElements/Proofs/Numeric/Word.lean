import FiniteElements.Dense.Matrix
import Mathlib

/-!
# Machine words and the room they allocate

Counts, offsets and shapes are signed 64-bit words: `wrapWord` reduces an exact value modulo
`2^64` into `[-2^63, 2^63)`, so it sees its argument only modulo `2^64`, leaves every value of
that range alone, and can be taken after every step or once at the end
(`wrapWord_add_wrapWord`, `wrapWord_mul_wrapWord`).

A list of words is allocated in one piece of at most `2^45` words; a length below `2^63` passes
the check exactly when it is at most `2^45` (`roomFits_natCast`). A matrix of zeros is allocated
when both its dimensions are positive and its entries fit (`Matrix.zeros_of_pos`) and refused
when they do not (`Matrix.zeros_of_room_lt`), and an allocated one has the shape asked for
(`Matrix.zeros_eq_ok`).

## Main results

* `FiniteElements.Numeric.wrapWord_eq_self`, `wrapWord_natCast`, `wrapWord_congr`
* `FiniteElements.Numeric.roomFits_wrapWord`, `roomFits_natCast`
* `FiniteElements.Dense.Matrix.zeros_of_pos`, `zeros_of_room_lt`, `zeros_eq_ok`
-/

namespace FiniteElements.Numeric

set_option autoImplicit false

/-- `wrapWord` with its bounds as powers of two. -/
theorem wrapWord_eq (x : Int) : wrapWord x = (x + 2 ^ 63) % 2 ^ 64 - 2 ^ 63 := rfl

theorem wrapWord_lt (x : Int) : wrapWord x < 2 ^ 63 := by
  simp only [wrapWord_eq]
  omega

theorem le_wrapWord (x : Int) : -2 ^ 63 ≤ wrapWord x := by
  simp only [wrapWord_eq]
  omega

theorem wrapWord_emod (x : Int) : wrapWord x % 2 ^ 64 = x % 2 ^ 64 := by
  simp only [wrapWord_eq]
  omega

/-- Wrapping sees a value only modulo `2^64`. -/
theorem wrapWord_congr {x y : Int} (h : x % 2 ^ 64 = y % 2 ^ 64) : wrapWord x = wrapWord y := by
  simp only [wrapWord_eq]
  omega

theorem wrapWord_eq_self {x : Int} : wrapWord x = x ↔ -2 ^ 63 ≤ x ∧ x < 2 ^ 63 := by
  simp only [wrapWord_eq]
  omega

@[simp] theorem wrapWord_zero : wrapWord 0 = 0 := by
  simp only [wrapWord_eq]
  omega

theorem wrapWord_add_wrapWord (x y : Int) : wrapWord (wrapWord x + y) = wrapWord (x + y) := by
  simp only [wrapWord_eq]
  omega

theorem wrapWord_mul_wrapWord (k x : Int) : wrapWord (k * wrapWord x) = wrapWord (k * x) := by
  apply wrapWord_congr
  rw [Int.mul_emod, wrapWord_emod, ← Int.mul_emod]

/-- Room for a count in `[0, 2^45]`, taken as a machine word, can be allocated. -/
theorem roomFits_wrapWord {n : Int} (h0 : 0 ≤ n) (h : n ≤ 2 ^ 45) :
    roomFits (wrapWord n) = true := by
  rw [wrapWord_eq_self.2 ⟨by omega, by omega⟩]
  simp only [roomFits, maxWords, Bool.and_eq_true, decide_eq_true_eq]
  exact ⟨h0, decide_eq_true (by omega)⟩

/-- A count below `2^63` is its own machine word. -/
theorem wrapWord_natCast {n : Nat} (h : n < 2 ^ 63) : wrapWord n = n :=
  wrapWord_eq_self.2 ⟨by omega, by exact_mod_cast h⟩

/-- Room for a count below `2^63`, taken as a machine word, can be allocated exactly when the count
is at most `2^45`. -/
theorem roomFits_natCast {n : Nat} (h : n < 2 ^ 63) :
    roomFits (wrapWord n) = decide (n ≤ 2 ^ 45) := by
  rw [wrapWord_natCast h]
  simp [roomFits, maxWords]

end FiniteElements.Numeric

namespace FiniteElements.Dense.Matrix

set_option autoImplicit false

/-- A shape with two positive dimensions and at most `2^45` entries is allocated. -/
theorem zeros_of_pos {r c : Int} (hr : 0 < r) (hc : 0 < c) (hroom : r * c ≤ 2 ^ 45) :
    zeros r c =
      .ok ⟨r.toNat, c.toNat, Array.replicate (r.toNat * c.toNat) 0, false, defaultName⟩ := by
  have hfits := Numeric.roomFits_wrapWord (Int.mul_pos hr hc).le hroom
  have hs : ¬(r ≤ 0 ∨ c ≤ 0) := by omega
  simp [zeros, checkShape, hfits, hs, bind, Except.bind, pure, Except.pure]

/-- A shape of more than `2^45` entries, counted without wrapping, is refused. -/
theorem zeros_of_room_lt {r c : Nat} (hbig : 2 ^ 45 < r * c) (hwrap : r * c < 2 ^ 63) :
    zeros r c = .error (.fault .negativeLength) := by
  have hroom : Numeric.roomFits (Numeric.wrapWord ((r : Int) * c)) = false := by
    rw [← Nat.cast_mul, Numeric.roomFits_natCast hwrap]
    simp only [decide_eq_false_iff_not, not_le]
    exact hbig
  simp [zeros, hroom, throw, throwThe, MonadExceptOf.throw, bind, Except.bind]

/-- A square of zeros of positive side has storage. -/
theorem isEmpty_square_zeros {n : Nat} (hn : 0 < n) :
    (⟨n, n, Array.replicate (n * n) 0, false, defaultName⟩ : Matrix).isEmpty = false := by
  simp only [isEmpty, Bool.or_self, beq_eq_false_iff_ne]
  omega

/-- A new matrix of zeros has two positive dimensions. -/
theorem zeros_eq_ok {r c : Int} {m : Matrix} (h : zeros r c = .ok m) :
    0 < r ∧ 0 < c ∧
      m = ⟨r.toNat, c.toNat, Array.replicate (r.toNat * c.toNat) 0, false, defaultName⟩ := by
  -- past the room check, a dimension that is not positive fails the shape check
  unfold zeros checkShape at h
  split_ifs at h with hroom hshape
  all_goals simp_all [bind, Except.bind, throw, throwThe, MonadExceptOf.throw, pure, Except.pure]

end FiniteElements.Dense.Matrix
