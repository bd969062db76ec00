import Mathlib
import FiniteElements.Cell.Hypercube

/-!
# Points of a face in its own frame

Face `f` of the reference cell lies across the normal axis `f / 2`, at `0` or `1` along it by the
parity of `f`. Its `(u, v)` frame takes the other axes in increasing order, so cell axis
`k ≠ f / 2` is frame axis `k` below the normal axis and `k - 1` above it (`Hypercube.frameAxis`).
The point of the face with frame coordinates `ξ` is `Hypercube.onFace`: the side on the normal
axis, `ξ` on the others.

`Hypercube.faceToCellPoint` computes exactly that point from any `ξ` with a coordinate for every
tangent axis (`Hypercube.faceToCellPoint_eq_onFace`), and reading the point of face `0` back along
the tangent axes of face `0` gives `ξ` again (`Hypercube.frame_onFace_zero`). A map of coordinates
commutes with `onFace` (`Hypercube.map_onFace`), so what holds of integer node coordinates holds of
the doubles computed from them.

## Main definitions

* `FiniteElements.Cell.Hypercube.frameAxis`, `FiniteElements.Cell.Hypercube.onFace`

## Main results

* `Hypercube.faceToCellPoint_eq_onFace`
* `Hypercube.faceAxes_zero`, `Hypercube.frame_onFace_zero`
* `Hypercube.map_onFace`
-/

namespace FiniteElements.Cell.Hypercube

set_option autoImplicit false

/-- The frame axis of cell axis `k` on a face with normal axis `n`. -/
def frameAxis (n k : Nat) : Nat := if k < n then k else k - 1

/-- The point of face `f` with normal coordinate `a` and frame coordinates `ξ`, `d` standing for a
frame coordinate `ξ` lacks. -/
def onFace {α : Type} (c : Hypercube) (f : Nat) (a : α) (ξ : List α) (d : α) : List α :=
  (List.range c.dim).map fun k => if k = f / 2 then a else ξ.getD (frameAxis (f / 2) k) d

section OnFace

variable {α β : Type} (c : Hypercube) (f : Nat) (a : α) (ξ : List α) (d : α)

@[simp]
theorem length_onFace : (c.onFace f a ξ d).length = c.dim := by
  simp [onFace]

theorem map_onFace (g : α → β) : (c.onFace f a ξ d).map g = c.onFace f (g a) (ξ.map g) (g d) := by
  simp only [onFace, List.map_map]
  refine List.map_congr_left fun k _ => ?_
  by_cases hk : k = f / 2 <;> simp [hk]

end OnFace

/-- **Placing a point on a face.** With a coordinate for each tangent axis, the point of face `f`
is its side on the normal axis and the frame coordinates on the others. -/
theorem faceToCellPoint_eq_onFace (c : Hypercube) {f : Nat} (hf : f < c.facesPerCell)
    {ξ : List Float} (hξ : c.dim - 1 ≤ ξ.length) :
    c.faceToCellPoint f ξ = .ok (c.onFace f (if (f : Int) % 2 == 1 then 1 else 0) ξ 0) := by
  -- one computation per face of each reference cell
  cases c with
  | interval =>
    simp only [facesPerCell, dim] at hf
    interval_cases f <;> rfl
  | square =>
    obtain ⟨x₀, rest, rfl⟩ : ∃ x₀ rest, ξ = x₀ :: rest := by
      cases ξ with
      | nil => simp [dim] at hξ
      | cons x₀ rest => exact ⟨x₀, rest, rfl⟩
    simp only [facesPerCell, dim] at hf
    interval_cases f <;>
      simp [faceToCellPoint, faceAxes, check, checkedIndex, setAt, onFace, frameAxis, dim,
        facesPerCell, bind, Except.bind, pure, Except.pure, Except.mapError, List.range_succ]
  | cube =>
    obtain ⟨x₀, x₁, rest, rfl⟩ : ∃ x₀ x₁ rest, ξ = x₀ :: x₁ :: rest := by
      match ξ, hξ with
      | x₀ :: x₁ :: rest, _ => exact ⟨x₀, x₁, rest, rfl⟩
    simp only [facesPerCell, dim] at hf
    interval_cases f <;>
      simp [faceToCellPoint, faceAxes, check, checkedIndex, setAt, onFace, frameAxis, dim,
        facesPerCell, bind, Except.bind, pure, Except.pure, Except.mapError, List.range_succ]

/-- The tangent axes of face `0` are the axes after the first. -/
theorem faceAxes_zero (c : Hypercube) : ∃ n u v, c.faceAxes 0 = .ok (n, u, v) ∧
    [u, v].take (c.dim - 1) = (List.range (c.dim - 1)).map fun a => ((a + 1 : Nat) : Int) := by
  cases c <;> exact ⟨_, _, _, rfl, rfl⟩

/-- **Reading a point of face `0` in its frame.** Its coordinates after the first are the frame
coordinates it was placed with. -/
theorem frame_onFace_zero {α : Type} (c : Hypercube) (a : α) {ξ : List α}
    (hξ : ξ.length = c.dim - 1) (d e : α) :
    ((List.range (c.dim - 1)).map fun i => (c.onFace 0 a ξ d).getD (i + 1) e) = ξ := by
  refine List.ext_getElem (by simp [hξ]) fun i h₁ h₂ => ?_
  have hi : i + 1 < c.dim := by simp at h₁; omega
  rw [List.getElem_map, List.getElem_range, List.getD_eq_getElem?_getD, onFace, List.getElem?_map,
    List.getElem?_range hi]
  simp [frameAxis, List.getD_eq_getElem?_getD, List.getElem?_eq_getElem h₂]

end FiniteElements.Cell.Hypercube
