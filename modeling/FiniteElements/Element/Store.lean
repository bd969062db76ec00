import FiniteElements.Constraint.Layout
import FiniteElements.Dense.Matrix

/-!
# The element store

Every finite element, simple or composite, answers its questions from one immutable `Store`: its
name and dof layout, the vector components each shape function is nonzero in, which restriction
rows are additive, the transfer matrices per child and the interface constraints, and the index
tables that place every cell dof and face dof

* among the dofs of its vector component (`ComponentIndex`, only for primitive shape functions,
  that is those nonzero in exactly one component),
* in one instance of one base element (`BaseIndex`),
* on the cell, face by face (`faceDofs`).

Queries check their indices: an index outside its range stops the query (`Failure.aborted`),
except for the questions whose answer is allowed to be an error, which report it.

## Main definitions

* `FiniteElements.Element.ComponentIndex`, `BaseIndex`, `BaseComponent`, `IndexTables`
* `FiniteElements.Element.Store` and its queries
* `Mask.combine`, `Mask.or`, `Mask.and`, `Mask.selected`
-/

namespace FiniteElements.Element

open FiniteElements.Cell FiniteElements.Dense

/-- A primitive shape function's vector component and its index among the shape functions of
that component. -/
structure ComponentIndex where
  component : Int
  index : Int
deriving Repr, BEq, DecidableEq, Inhabited

/-- The marker of a shape function that is not primitive. -/
def ComponentIndex.invalid : ComponentIndex := ⟨-1, -1⟩

/-- A shape function of a composite placed in one instance of one of its base elements. -/
structure BaseIndex where
  base : Nat
  copy : Nat
  index : Nat
deriving Repr, BEq, DecidableEq, Inhabited

/-- The base element a component of a composite comes from, and the component within it. -/
structure BaseComponent where
  base : Nat
  component : Nat
deriving Repr, BEq, DecidableEq, Inhabited

/-- The index tables of an element. -/
structure IndexTables where
  /-- Per cell dof: its component index, `invalid` when not primitive. -/
  systemToComponent : List ComponentIndex
  /-- Per face dof: its component index, `invalid` when not primitive. -/
  faceSystemToComponent : List ComponentIndex
  /-- Per cell dof: its place in a base. -/
  systemToBase : List BaseIndex
  /-- Per face dof: its place in a base. -/
  faceSystemToBase : List BaseIndex
  /-- Per component: its base and component there. -/
  componentToBase : List BaseComponent
  /-- Per face dof: the cell dof whose primitivity decides the face dof's. -/
  faceCheckDof : List Nat
deriving Repr, Inhabited

/-- Everything an element knows about itself. -/
structure Store where
  name : String
  layout : DofLayout
  cell : Hypercube
  additive : List Bool
  masks : List Mask
  /-- The restriction matrices per child, empty when not provided. -/
  restriction : List Matrix
  /-- The prolongation matrices per child, empty when not provided. -/
  prolongation : List Matrix
  /-- The interface constraints, `Matrix.empty` when not provided. -/
  constraints : Matrix
  tables : IndexTables
  /-- Whether cell dofs are numbered object kind by object kind. -/
  entityOrdered : Bool
  /-- Per face: the cell dof of every face dof. -/
  faceDofs : List (List Nat)
deriving Inhabited

namespace Store

/-- The number of dofs of the cell. -/
def dofsPerCell (s : Store) : Int := s.layout.dofsPerCell

/-- The number of vector components. -/
def components (s : Store) : Int := s.layout.components

/-- The number of components each shape function is nonzero in. -/
def nonzeroCounts (s : Store) : List Nat := s.masks.map Mask.count

/-- Whether every shape function is primitive. -/
def isPrimitive (s : Store) : Bool := s.masks.all fun m => m.count == 1

/-- The element's description: its name, then its layout. -/
def text (s : Store) : String := s.name ++ ": " ++ s.layout.text

/-- The components shape function `i` is nonzero in. -/
def nonzeroComponents (s : Store) (i : Int) : Outcome Mask := do
  let i ← checkIndex .shapeFunction i s.dofsPerCell
  return s.masks.getD i default

/-- The number of components shape function `i` is nonzero in. -/
def nNonzeroComponents (s : Store) (i : Int) : Outcome Nat := do
  let i ← checkIndex .shapeFunction i s.dofsPerCell
  return (s.masks.getD i default).count

/-- Whether shape function `i` is nonzero in exactly one component. -/
def isPrimitiveShape (s : Store) (i : Int) : Outcome Bool := do
  let n ← s.nNonzeroComponents i
  return n == 1

/-- Whether restriction row `i` is summed over the children. -/
def restrictionIsAdditive (s : Store) (i : Int) : Outcome Bool := do
  let i ← checkIndex .shapeFunction i s.dofsPerCell
  return s.additive.getD i false

/-- The shape functions nonzero in a component, increasing. -/
def componentDofs (s : Store) (c : Int) : Outcome (List Nat) := do
  let c ← checkIndex .component c s.components
  return (s.masks.zipIdx.filter fun p => p.1.get c).map (·.2)

/-- The mask of `n` components selecting the listed ones. -/
def selectComponents (n : Int) (selected : List Int) : Outcome Mask := do
  if n < 0 then liftFault (.error .negativeLength)
  let bits ← selected.foldlM
    (fun (bits : List Bool) (c : Int) => do
      let c ← checkIndex .component c n
      return bits.set c true)
    (List.replicate n.toNat false)
  return ⟨bits⟩

/-- The mask selecting the single component `c` of the element. -/
def componentMaskFor (s : Store) (c : Int) : Outcome Mask := selectComponents s.components [c]

/-- The component index of shape function `i`, reporting an index out of range or a shape
function that is not primitive. -/
def systemToComponentIndex (s : Store) (i : Int) : Outcome ComponentIndex := do
  if ¬(0 ≤ i ∧ i < s.dofsPerCell) then report (.indexRange .shapeFunction i s.dofsPerCell)
  let mask := s.masks.getD i.toNat default
  if mask.count != 1 then report (.notPrimitive s.name i mask)
  return s.tables.systemToComponent.getD i.toNat .invalid

/-- The first shape function with this component index. -/
def componentToSystemIndex (s : Store) (c idx : Int) : Outcome Nat :=
  let want : ComponentIndex := ⟨c, idx⟩
  let found := if 0 ≤ c ∧ c < s.components ∧ 0 ≤ idx
    then s.tables.systemToComponent.findIdx? (· == want) else none
  match found with
  | some i => pure i
  | none => report (.noComponentIndex s.name c idx)

/-- The component index of face shape function `i`, reporting an index out of range or a face
shape function whose cell shape function is not primitive. -/
def faceSystemToComponentIndex (s : Store) (i : Int) : Outcome ComponentIndex := do
  let n := s.layout.dofsPerFace
  if ¬(0 ≤ i ∧ i < n) then report (.indexRange .faceShapeFunction i n)
  let cellDof := s.tables.faceCheckDof.getD i.toNat 0
  let primitive ← s.isPrimitiveShape cellDof
  if !primitive then report (.faceNotPrimitive s.name i cellDof)
  return s.tables.faceSystemToComponent.getD i.toNat .invalid

/-- The place of shape function `i` in a base. -/
def systemToBaseIndex (s : Store) (i : Int) : Outcome BaseIndex := do
  let i ← checkIndex .shapeFunction i s.dofsPerCell
  return s.tables.systemToBase.getD i default

/-- The place of face shape function `i` in a base. -/
def faceSystemToBaseIndex (s : Store) (i : Int) : Outcome BaseIndex := do
  let i ← checkIndex .faceShapeFunction i s.layout.dofsPerFace
  return s.tables.faceSystemToBase.getD i default

/-- The base and base component of component `c`. -/
def componentToBase (s : Store) (c : Int) : Outcome BaseComponent := do
  let c ← checkIndex .component c s.components
  return s.tables.componentToBase.getD c default

/-- The cell dof that face dof `j` of face `face` is. -/
def faceToCellIndex (s : Store) (j face : Int) : Outcome Nat := do
  let j ← checkIndex .faceShapeFunction j s.layout.dofsPerFace
  let f ← checkIndex .face face s.cell.facesPerCell
  return (s.faceDofs.getD f []).getD j 0

/-- Whether shape function `i` is one of the dofs of face `face`. -/
def hasSupportOnFace (s : Store) (i face : Int) : Outcome Bool := do
  let i ← checkIndex .shapeFunction i s.dofsPerCell
  let f ← checkIndex .face face s.cell.facesPerCell
  return (s.faceDofs.getD f []).contains i

/-- Whether restriction matrices are provided. -/
def restrictionIsImplemented (s : Store) : Bool := !s.restriction.isEmpty

/-- Whether prolongation matrices are provided. -/
def prolongationIsImplemented (s : Store) : Bool := !s.prolongation.isEmpty

/-- The restriction matrix of a child (rows coarse, columns fine), as a read-only copy. -/
def restrictionMatrix (s : Store) (child : Int) : Outcome Matrix := do
  let n := s.cell.childrenPerCell
  if ¬(0 ≤ child ∧ child < n) then report (.indexRange .child child n)
  if s.restriction.isEmpty then report (.projectionVoid s.name)
  return (s.restriction.getD child.toNat .empty).readOnlyCopy

/-- The prolongation matrix of a child (rows fine, columns coarse), as a read-only copy. -/
def prolongationMatrix (s : Store) (child : Int) : Outcome Matrix := do
  let n := s.cell.childrenPerCell
  if ¬(0 ≤ child ∧ child < n) then report (.indexRange .child child n)
  if s.prolongation.isEmpty then report (.embeddingVoid s.name)
  return (s.prolongation.getD child.toNat .empty).readOnlyCopy

/-- The transfer matrix of a kind for a child. -/
def transferMatrix (s : Store) : Transfer → Int → Outcome Matrix
  | .restriction => s.restrictionMatrix
  | .prolongation => s.prolongationMatrix

/-- Whether transfer matrices of a kind are provided. -/
def transferIsImplemented (s : Store) : Transfer → Bool
  | .restriction => s.restrictionIsImplemented
  | .prolongation => s.prolongationIsImplemented

/-- Whether the interface constraints are known: in 1D and without face dofs there are none to
give. -/
def constraintsAreImplemented (s : Store) : Bool :=
  s.layout.dim == 1 || s.layout.dofsPerFace == 0 || !s.constraints.isEmpty

/-- The interface constraints as a read-only copy, reporting constraints that are needed but
not provided. -/
def interfaceConstraints (s : Store) : Outcome Matrix := do
  let (m, n) := s.layout.constraintsSize
  if Numeric.wrapWord (m * n) != 0 && s.constraints.isEmpty then report (.constraintsVoid s.name)
  return s.constraints.readOnlyCopy

end Store

/-- The entrywise combination of two masks by `f`; masks of different sizes stop the call. -/
def Mask.combine (f : Bool → Bool → Bool) (a b : Mask) : Outcome Mask :=
  if a.size != b.size then abort (.maskSizes a.size b.size)
  else .ok ⟨List.zipWith f a.bits b.bits⟩

/-- The entries selected in either mask. -/
def Mask.or (a b : Mask) : Outcome Mask := Mask.combine (· || ·) a b

/-- The entries selected in both masks. -/
def Mask.and (a b : Mask) : Outcome Mask := Mask.combine (· && ·) a b

/-- Whether entry `i` is selected, stopping on an entry outside the mask; `what` names what the
entries count, components or blocks. -/
def Mask.selected (what : Counted) (m : Mask) (i : Int) : Outcome Bool := do
  let i ← checkIndex what i m.size
  return m.get i

end FiniteElements.Element
