import FiniteElements.Proofs.Composite.Components
import FiniteElements.Family.Factory

/-!
# Built elements

Elements are built in two ways: a simple element from a definition whose layout is made from
per-object counts, which is how every family member is made, and a composite from built bases.
`Store.Built` says that a store was built in one of these ways, and every built store is well
formed (`Store.Built.wellFormed`), by induction on how it was built: a simple element by
`Store.wellFormed_of_ofDefinition`, a composite by `CompositeRun.wellFormed` from its bases.

The element constructors stay within built stores: every family member is built
(`Family.member_built`), and so is a composite of built elements (`Element.compose_built`).

## Main definitions

* `FiniteElements.Element.Store.Built`

## Main results

* `Store.Built.wellFormed`
* `Family.member_built`, `Element.compose_built`
-/

namespace FiniteElements.Element

set_option autoImplicit false

namespace Store

/-- The stores of built elements: simple elements on a layout made from counts, and composites of
built stores. -/
inductive Built : Store → Prop
  | simple {d : Definition} {dim components degree : Int} {counts : List Int} {s : Store}
      (hfd : DofLayout.ofCounts? dim counts components degree = .ok d.layout)
      (h : ofDefinition d = .ok s) : Built s
  | composite {p : Packing} {bases : List (Store × Nat)} {s : Store}
      (hbases : ∀ x ∈ bases, Built x.1) (h : Store.composite p (asSpecs bases) = .ok s) : Built s

/-- **Every built store is well formed.** -/
theorem Built.wellFormed {s : Store} (h : s.Built) : s.WellFormed := by
  induction h with
  | simple hfd h => exact wellFormed_of_ofDefinition hfd h
  | composite _ h ih =>
    obtain ⟨r⟩ := composite_eq_ok h
    -- the run checked the bases it was given
    have hb := asSpecs_injective (checkBases_eq_ok r.checkBases_eq).1
    exact r.wellFormed fun x hx => ih x (hb ▸ hx)

/-- The linear element on the segment, with one dof on each vertex and no transfer matrices. -/
def linearSegmentDefinition : Definition :=
  { name := "P1", layout := okValue (DofLayout.ofCounts? 1 [1, 0] 1 1)
    additive := [false, false], masks := [⟨[true]⟩, ⟨[true]⟩] }

def linearSegment : Store := okValue (ofDefinition linearSegmentDefinition)

theorem linearSegment_built : linearSegment.Built := by
  have hfd : DofLayout.ofCounts? 1 [1, 0] 1 1 = .ok linearSegmentDefinition.layout :=
    eq_ok_okValue (by decide)
  have hs : ofDefinition linearSegmentDefinition = .ok linearSegment := eq_ok_okValue (by decide)
  exact .simple hfd hs

end Store

/-- Two copies of the linear segment element, blocked. -/
def linearSegmentPair : Store := okValue (Store.composite .blocked (asSpecs [(Store.linearSegment, 2)]))

theorem linearSegmentPair_eq :
    Store.composite .blocked (asSpecs [(Store.linearSegment, 2)]) = .ok linearSegmentPair :=
  eq_ok_okValue (by decide)

theorem linearSegmentPair_bases_built : ∀ x ∈ [(Store.linearSegment, 2)], x.1.Built := by
  simp only [List.mem_singleton, forall_eq]
  exact Store.linearSegment_built

theorem linearSegmentPair_built : linearSegmentPair.Built :=
  .composite linearSegmentPair_bases_built linearSegmentPair_eq

/-- **A composite of built elements is built.** -/
theorem compose_built {p : Packing} {bases : List (Option Element × Int)} {e : Element}
    (hb : ∀ x ∈ bases, ∀ b ∈ x.1, b.store.Built) (h : compose p bases = .ok e) : e.store.Built := by
  unfold compose at h
  rw [bind_eq_ok] at h
  obtain ⟨s, hs, h⟩ := h
  cases h
  obtain ⟨r⟩ := Store.composite_eq_ok hs
  have hspecs := (checkBases_eq_ok r.checkBases_eq).1
  have hcomp : Store.composite p (asSpecs r.bases) = .ok s := hspecs ▸ hs
  refine .composite (fun x hx => ?_) hcomp
  -- a checked base is the store of a given element
  have hmem : (some x.1, (x.2 : Int)) ∈ bases.map fun q => (q.1.map store, q.2) := by
    rw [hspecs]
    exact List.mem_map_of_mem hx
  obtain ⟨q, hq, hqx⟩ := List.mem_map.1 hmem
  simp only [Prod.mk.injEq, Option.map_eq_some_iff] at hqx
  obtain ⟨⟨b, hb', hbx⟩, -⟩ := hqx
  exact hbx ▸ hb q hq b hb'

end FiniteElements.Element

namespace FiniteElements.Family

set_option autoImplicit false

open FiniteElements.Element

theorem continuous_built {dim degree : Int} {e : Element} (h : continuous dim degree = .ok e) :
    e.store.Built := by
  unfold continuous at h
  rw [ite_report_bind_eq_ok, bind_eq_ok] at h
  obtain ⟨-, c, -, h⟩ := h
  rw [bind_eq_ok] at h
  obtain ⟨d, hd, h⟩ := h
  rw [bind_eq_ok] at h
  obtain ⟨s, hs, h⟩ := h
  cases h
  unfold continuousDefinition at hd
  simp only [bind_eq_ok, mapError_eq_ok] at hd
  obtain ⟨fd, hfd, -, -, hd⟩ := hd
  cases hd
  exact .simple hfd hs

theorem discontinuous_built {dim degree : Int} {e : Element}
    (h : discontinuous dim degree = .ok e) : e.store.Built := by
  unfold discontinuous at h
  rw [ite_report_bind_eq_ok, bind_eq_ok] at h
  obtain ⟨-, c, -, h⟩ := h
  rw [bind_eq_ok] at h
  obtain ⟨d, hd, h⟩ := h
  rw [bind_eq_ok] at h
  obtain ⟨s, hs, h⟩ := h
  cases h
  unfold discontinuousDefinition at hd
  simp only [bind_eq_ok, mapError_eq_ok] at hd
  obtain ⟨fd, hfd, -, -, R₀, -, R₁, -, P, -, R, -, hd⟩ := hd
  cases hd
  exact .simple hfd hs

theorem raviartThomas_built {dim degree : Int} {e : Element}
    (h : raviartThomas dim degree = .ok e) : e.store.Built := by
  unfold raviartThomas at h
  rw [ite_report_bind_eq_ok, ite_report_bind_eq_ok, bind_eq_ok] at h
  obtain ⟨-, -, c, -, h⟩ := h
  rw [bind_eq_ok] at h
  obtain ⟨fd, hfd, h⟩ := h
  rw [mapError_eq_ok, bind_eq_ok] at *
  obtain ⟨s, hs, h⟩ := h
  cases h
  exact .simple hfd hs

/-- **Every family member is built.** -/
theorem member_built {family : String} {dim degree : Int} {e : Element}
    (h : member family dim degree = .ok e) : e.store.Built := by
  unfold member at h
  split at h
  · exact continuous_built h
  split at h
  · exact discontinuous_built h
  · exact raviartThomas_built h

end FiniteElements.Family
