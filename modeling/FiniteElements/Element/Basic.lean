import FiniteElements.Element.Composite
import FiniteElements.Text.Blank

/-!
# Elements

An `Element` is a store together with what the store alone does not say: whether it is a plain
element given by its definition, a member of one of the element families, or a composite of
base elements with their multiplicities and its packing.

The bases of a composite are its base elements as given; a non-composite element is its own
single base, of multiplicity one, and hands out its plain store as that base.

## Main definitions

* `FiniteElements.Element.Family`, `FiniteElements.Element`
* `Packing.ofLabel?`, `Element.ofDefinition`, `Element.compose`
* `Element.nBaseElements`, `Element.baseElement`, `Element.elementMultiplicity`,
  `Element.blockMaskFromComponentMask`
-/

namespace FiniteElements.Element

/-- The element families. -/
inductive Family where
  /-- Continuous tensor-product Lagrange elements of a degree `≥ 1`, nodes equidistant. -/
  | continuous (degree : Nat)
  /-- Discontinuous tensor-product Lagrange elements of a degree `≥ 0`, all dofs interior. -/
  | discontinuous (degree : Nat)
  /-- The lowest-order Raviart–Thomas element: one normal flux per face. -/
  | raviartThomas
deriving Repr, BEq, DecidableEq, Inhabited

end FiniteElements.Element

namespace FiniteElements

open Element in
/-- A finite element. -/
inductive Element where
  /-- An element given by its definition alone. -/
  | basic (s : Store)
  /-- A member of a family. -/
  | member (family : Family) (s : Store)
  /-- A composite of bases, each with its multiplicity, under a packing. -/
  | composite (s : Store) (packing : Packing) (bases : List Element) (multiplicities : List Nat)
deriving Inhabited

end FiniteElements

namespace FiniteElements.Element

/-- The packing a label names: `interleaved` (also the empty label) or `blocked`, after trimming
white space and folding case. -/
def Packing.ofLabel? (label : String) : Except ElementError Packing :=
  let t := Text.foldLabel label
  if t == "" || t == "interleaved" then .ok .interleaved
  else if t == "blocked" then .ok .blocked
  else .error (.unknownPackingLabel label)

/-- The store of an element. -/
def store : Element → Store
  | .basic s | .member _ s | .composite s .. => s

/-- The name of an element. -/
def name (e : Element) : String := e.store.name

/-- The packing of a composite. -/
def packing? : Element → Option Packing
  | .composite _ p .. => some p
  | _ => none

/-- The simple element of a definition. -/
def ofDefinition (d : Definition) : Outcome Element := do
  return .basic (← Store.ofDefinition d)

/-- The composite of bases (a missing base is `none`) with multiplicities under a packing. -/
def compose (packing : Packing) (bases : List (Option Element × Int)) : Outcome Element := do
  let s ← Store.composite packing (bases.map fun p => (p.1.map store, p.2))
  return .composite s packing (bases.filterMap (·.1)) (bases.map (·.2.toNat))

/-- The number of bases: one for a non-composite element. -/
def nBaseElements : Element → Nat
  | .composite _ _ bases _ => bases.length
  | _ => 1

/-- Base `b`; a non-composite element's only base is its plain store. -/
def baseElement (e : Element) (b : Int) : Outcome Element := do
  let b ← checkIndex .baseElement b e.nBaseElements
  match e with
  | .composite _ _ bases _ => return bases.getD b default
  | _ => return .basic e.store

/-- The multiplicity of base `b`. -/
def elementMultiplicity (e : Element) (b : Int) : Outcome Nat := do
  let b ← checkIndex .baseElement b e.nBaseElements
  match e with
  | .composite _ _ _ ms => return ms.getD b 1
  | _ => return 1

/-- The block of each component: per base and copy, as many entries as the base has components. -/
def componentBlocks : Element → List Nat
  | .composite _ _ bases ms =>
    let sizes := (bases.zip ms).flatMap fun (b, m) =>
      List.replicate m b.store.components.toNat
    sizes.zipIdx.flatMap fun (n, k) => List.replicate n k
  | e => List.replicate e.store.components.toNat 0

/-- The number of blocks: one per copy of every base. -/
def nBlocks : Element → Nat
  | .composite _ _ _ ms => ms.foldr (· + ·) 0
  | _ => 1

/-- One component `c` of a component mask, selected or not, against the values and the seen
marks of the blocks so far: its block must not have been seen with the other value. -/
def blockMaskStep (cm : Mask) (blockOf : List Nat) (acc : List Bool × List Bool)
    (p : Bool × Nat) : Outcome (List Bool × List Bool) := do
  let (sel, c) := p
  let b ← liftFault (checkedIndex blockOf c)
  if acc.2.getD b false && acc.1.getD b false != sel then report (.partialBlock cm b)
  return (acc.1.set b sel, acc.2.set b true)

/-- The mask over blocks of a component mask that selects every block fully or not at all. -/
def blockMaskFromComponentMask (e : Element) (cm : Mask) : Outcome Mask := do
  let s := e.store
  if (cm.size : Int) != s.components then report (.componentMaskSize cm.size s.name s.components)
  let (bits, _) ← cm.bits.zipIdx.foldlM (blockMaskStep cm e.componentBlocks)
    (List.replicate e.nBlocks false, List.replicate e.nBlocks false)
  return ⟨bits⟩

end FiniteElements.Element
