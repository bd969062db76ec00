/-!
# Masks

A mask selects entries of a fixed-size list: the vector components of an element (a component
mask) or the blocks of a composite, one per base instance (a block mask). Masks of equal size
combine entrywise (`Mask.combine`, with the store's queries, since combining masks of two sizes
stops the call).

## Main definitions

* `FiniteElements.Element.Mask`, `Mask.count`, `Mask.firstSelected`, `Mask.get`, `Mask.text`
-/

namespace FiniteElements.Element

/-- A selection of entries. -/
structure Mask where
  bits : List Bool
deriving Repr, BEq, DecidableEq, Inhabited

namespace Mask

/-- The number of entries. -/
def size (m : Mask) : Nat := m.bits.length

/-- The number of selected entries. -/
def count (m : Mask) : Nat := m.bits.countP id

/-- The first selected entry, `-1` when none is. -/
def firstSelected (m : Mask) : Int :=
  match m.bits.findIdx? id with
  | some i => i
  | none => -1

/-- Entry `i`, unselected outside. -/
def get (m : Mask) (i : Nat) : Bool := m.bits.getD i false

/-- The mask of size `n` selecting exactly the entry `c`. -/
def single (n c : Nat) : Mask := ⟨(List.range n).map (· == c)⟩

/-- The mask written `[true,false,…]`. -/
def text (m : Mask) : String :=
  "[" ++ String.intercalate "," (m.bits.map fun b => if b then "true" else "false") ++ "]"

end Mask

end FiniteElements.Element
