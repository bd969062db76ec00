import FiniteElements.Cell.Hypercube
import FiniteElements.Dense.Matrix
import FiniteElements.Basis.GaussLegendre
import FiniteElements.Element.Mask
import FiniteElements.Element.Packing
import FiniteElements.Text.Quoted

/-!
# Why an element question has no answer

`ElementError` lists the causes: an index outside its range, a dof layout or element definition
that does not hold together, a missing or ill-shaped transfer or constraint matrix, constraint
weights that disagree, a composite whose bases do not fit, a name the factory cannot read, a
transfer law that fails. A cause may be given context (`inElement`, `onFaceLine`, `inBase`) and
may come from a reference cell, a matrix or a basis.

Every cause belongs to at most one `Sentinel` class; `ElementError.kind` finds it through the
context. A `Failure` is either reported as the answer of a call or aborts the call because one of
its preconditions does not hold; context is only added to reported failures.

## Main definitions

* `FiniteElements.Element.Sentinel`, `Sentinel.text`
* `FiniteElements.Element.ElementError`, `ElementError.kind`, `ElementError.message`
* `FiniteElements.Element.Failure`, `Failure.error`, `Failure.aborts`, `Failure.within`
-/

namespace FiniteElements.Element

open FiniteElements.Cell FiniteElements.Dense FiniteElements.Basis

/-- The classes of element errors. -/
inductive Sentinel where
  | indexRange
  | notPrimitive
  | projectionVoid
  | embeddingVoid
  | constraintsVoid
  | componentIndexInvalid
  | wrongInterfaceMatrixSize
  | wrongTransferMatrixSize
  | inconsistentConstraint
  | dimensionMismatch
  | invalidElementData
  | noSupportPoints
  | transferLaw
deriving Repr, BEq, DecidableEq, Inhabited

/-- The text that opens every message of a class. -/
def Sentinel.text : Sentinel → String
  | .indexRange => "fe: index out of range"
  | .notPrimitive => "fe: shape function is not primitive"
  | .projectionVoid => "fe: restriction matrices are not implemented"
  | .embeddingVoid => "fe: prolongation matrices are not implemented"
  | .constraintsVoid => "fe: interface constraints are not implemented"
  | .componentIndexInvalid => "fe: component-index pair does not exist"
  | .wrongInterfaceMatrixSize => "fe: interface constraint matrix has the wrong size"
  | .wrongTransferMatrixSize => "fe: transfer matrices have the wrong size"
  | .inconsistentConstraint => "fe: constraint weights are inconsistent"
  | .dimensionMismatch => "fe: dimension mismatch"
  | .invalidElementData => "fe: invalid element data"
  | .noSupportPoints => "elements: element has no support points"
  | .transferLaw => "elements: transfer law violated"

/-- What a checked index counts. -/
inductive Counted where
  | component
  | block
  | objectDimension
  | faceObjectDimension
  | baseElement
  | shapeFunction
  | faceShapeFunction
  | face
  | child
  | constrainedRow
  | constrainingColumn
deriving Repr, BEq, DecidableEq, Inhabited

/-- The words for what an index counts. -/
def Counted.name : Counted → String
  | .component => "component"
  | .block => "block"
  | .objectDimension => "object dimension"
  | .faceObjectDimension => "face object dimension"
  | .baseElement => "base element"
  | .shapeFunction => "shape function"
  | .faceShapeFunction => "face shape function"
  | .face => "face"
  | .child => "child"
  | .constrainedRow => "constrained row"
  | .constrainingColumn => "constraining column"

/-- The two kinds of transfer matrices. -/
inductive Transfer where
  /-- Fine dofs of a child to coarse dofs. -/
  | restriction
  /-- Coarse dofs to fine dofs of a child. -/
  | prolongation
deriving Repr, BEq, DecidableEq, Inhabited

/-- The name of a transfer kind. -/
def Transfer.name : Transfer → String
  | .restriction => "restriction"
  | .prolongation => "prolongation"

/-- Why an element question has no answer. -/
inductive ElementError where
  /-- An index outside `[0, bound)`. -/
  | indexRange (what : Counted) (index : Int) (bound : Int)
  /-- Masks of different sizes were combined. -/
  | maskSizes (a b : Nat)
  /-- A layout or family of a dimension without a reference cell. -/
  | unsupportedCell (e : CellError)
  /-- A dof layout needs one count per object dimension up to `dim`. -/
  | countsLength (dim : Int) (given : Nat)
  /-- Dof counts are not negative. -/
  | negativeCount (count : Int) (objectDim : Nat)
  /-- An element has at least one vector component. -/
  | noComponents (components : Int)
  /-- An element has at least one dof. -/
  | noDofs
  /-- A definition of a dimension without a reference cell. -/
  | definitionCell (name : String) (e : CellError)
  /-- Definitions are named. -/
  | unnamed
  /-- A definition without dofs or without components. -/
  | emptyElement (name : String) (dofs components : Int)
  /-- One additivity flag per dof. -/
  | additivityCount (name : String) (given : Nat) (dofs : Int)
  /-- One component mask per dof. -/
  | maskCount (name : String) (given : Nat) (dofs : Int)
  /-- A component mask of the wrong size. -/
  | maskSize (name : String) (shape : Nat) (size : Nat) (components : Int)
  /-- A shape function that is zero in every component. -/
  | zeroShape (name : String) (shape : Nat)
  /-- The failure of building the element `name`. -/
  | inElement (name : String) (e : ElementError)
  /-- Transfer matrices are given for all children or for none. -/
  | transferCount (kind : Transfer) (populated given children : Nat)
  /-- A transfer matrix is square of the element's dof count. -/
  | transferShape (kind : Transfer) (child : Nat) (rows cols : Nat) (dofs : Int)
  /-- The element has no restriction matrices. -/
  | projectionVoid (name : String)
  /-- The element has no prolongation matrices. -/
  | embeddingVoid (name : String)
  /-- The element has no interface constraints. -/
  | constraintsVoid (name : String)
  /-- An interface constraint matrix of the wrong shape. -/
  | constraintShape (rows cols : Nat) (m n : Int)
  /-- A refined dof on a face line depends on a coarse dof off that line. -/
  | offLine (row : Int) (line : Nat) (weight : Float) (col : Nat)
  /-- The failure of checking row `row` of face line `line`. -/
  | onFaceLine (line : Nat) (row : Int) (e : ElementError)
  /-- One weight per column. -/
  | columnsWeights (cols weights : Nat)
  /-- A row added again with a different weight on a column. -/
  | weightDiffers (row col : Int) (stored adding : Float)
  /-- A row added again with a weight on a new column. -/
  | weightMissing (row col : Int) (adding : Float)
  /-- A shape function nonzero in several components. -/
  | notPrimitive (name : String) (shape : Int) (mask : Mask)
  /-- A face shape function whose cell shape function is not primitive. -/
  | faceNotPrimitive (name : String) (shape cell : Int)
  /-- No shape function has this component and index. -/
  | noComponentIndex (name : String) (component index : Int)
  /-- A component mask of the wrong size for the element. -/
  | componentMaskSize (size : Nat) (name : String) (components : Int)
  /-- A component mask that selects part of a block. -/
  | partialBlock (mask : Mask) (block : Nat)
  /-- A packing label that names no packing. -/
  | unknownPackingLabel (label : String)
  /-- A composite has at least one base. -/
  | noBases
  /-- A packing code that names no packing. -/
  | unknownPacking (p : Packing)
  /-- A base slot without an element. -/
  | missingBase (base : Nat)
  /-- A base must appear at least once. -/
  | badMultiplicity (base : Nat) (name : String) (multiplicity : Int)
  /-- Bases of different dimensions. -/
  | baseDimension (base : Nat) (name : String) (dim dim0 : Int)
  /-- Only entity-ordered bases can be interleaved. -/
  | notEntityOrdered (base : Nat) (name : String)
  /-- A family below its least degree. -/
  | degreeTooLow (family : String) (least : Nat) (degree : Int)
  /-- A family available for degree 0 only. -/
  | onlyLowestDegree (family : String) (degree : Int)
  /-- A family available in two and three dimensions only. -/
  | planeOrSolidOnly (family : String) (dim : Int)
  /-- An element name that does not read as `Family<dim>(degree)`. -/
  | unreadableName (name : String)
  /-- An element name of an unknown family. -/
  | unknownFamily (family : String) (known : List String)
  /-- An element name whose dimension is not the one asked for. -/
  | nameDimension (name : String) (nameDim dim : Int)
  /-- An element name whose degree does not fit a machine integer. -/
  | degreeOutOfRange (name : String) (digits : String)
  /-- The element does not place its dofs at points. -/
  | noSupportPoints (name : String)
  /-- Two children give a shared fine dof different prolongation rows. -/
  | sharedDofDiffers (name : String) (child dof : Nat) (point : List Float) (coarse : Nat)
      (v w : Float)
  /-- `R_c · P_c` of a non-additive row is not the identity row. -/
  | nonAdditiveRow (name : String) (row child entry : Nat) (v want : Float)
  /-- A non-additive row is not taken from exactly one child. -/
  | contributingChildren (name : String) (row count : Nat)
  /-- `Σ_c R_c · P_c` of an additive row is not the identity row. -/
  | additiveRow (name : String) (row entry : Nat) (v want : Float)
  /-- The two faces on a line constrain its refined dofs differently. -/
  | sharedLineWeights (name : String) (line dof : Nat) (face0 : Nat)
      (weights0 : List (Nat × Float)) (face1 : Nat) (weights1 : List (Nat × Float))
  /-- An element entry of the input lists no bases. -/
  | noBasesListed (name : String)
  /-- The failure of building base `base` of the input element `name`. -/
  | inBase (name : String) (base : Nat) (e : ElementError)
  /-- A shape function whose component index leads back to another shape function. -/
  | roundTrip (shape : Nat) (component index : Int) (back : Int)
  /-- A question about a reference cell without answer. -/
  | cell (e : CellError)
  /-- A matrix operation without result. -/
  | matrix (e : MatrixError)
  /-- A basis question without answer. -/
  | basis (e : BasisError)
  /-- A quadrature rule that could not be built. -/
  | quadrature (e : RuleError)
  /-- A fault of plain data access. -/
  | fault (f : Fault)
deriving Repr, Inhabited

namespace ElementError

/-- The class of an error, through its context; `none` for errors of cells, matrices, bases and
data access. -/
def kind : ElementError → Option Sentinel
  | .indexRange .. => some .indexRange
  | .maskSizes .. => some .dimensionMismatch
  | .unsupportedCell .. | .countsLength .. | .negativeCount .. | .noComponents ..
  | .noDofs | .definitionCell .. | .unnamed | .emptyElement .. | .additivityCount ..
  | .maskCount .. | .zeroShape .. | .unknownPackingLabel .. | .noBases | .unknownPacking ..
  | .missingBase .. | .badMultiplicity .. | .notEntityOrdered .. | .degreeTooLow ..
  | .onlyLowestDegree .. | .planeOrSolidOnly .. | .unreadableName .. | .unknownFamily ..
  | .degreeOutOfRange .. | .noBasesListed .. => some .invalidElementData
  | .maskSize .. | .columnsWeights .. | .componentMaskSize .. | .baseDimension ..
  | .nameDimension .. => some .dimensionMismatch
  | .inElement _ e | .onFaceLine _ _ e | .inBase _ _ e => e.kind
  | .transferCount .. | .transferShape .. => some .wrongTransferMatrixSize
  | .projectionVoid .. => some .projectionVoid
  | .embeddingVoid .. => some .embeddingVoid
  | .constraintsVoid .. => some .constraintsVoid
  | .constraintShape .. => some .wrongInterfaceMatrixSize
  | .offLine .. | .weightDiffers .. | .weightMissing .. | .sharedLineWeights .. =>
    some .inconsistentConstraint
  | .notPrimitive .. | .faceNotPrimitive .. => some .notPrimitive
  | .noComponentIndex .. | .partialBlock .. | .roundTrip .. => some .componentIndexInvalid
  | .noSupportPoints .. => some .noSupportPoints
  | .sharedDofDiffers .. | .nonAdditiveRow .. | .contributingChildren .. | .additiveRow .. =>
    some .transferLaw
  | .cell .. | .matrix .. | .basis .. | .quadrature .. | .fault .. => none

/-- A double as messages write it. -/
def num (x : Float) : String := Decimal.floatText x

/-- A list of doubles as messages write it: `[a b c]`. -/
def nums (xs : List Float) : String := "[" ++ String.intercalate " " (xs.map num) ++ "]"

/-- A map from columns to weights as messages write it, keys increasing: `map[3:0.5 7:0.25]`. -/
def weightMap (ws : List (Nat × Float)) : String :=
  "map[" ++ String.intercalate " " (ws.map fun p => s!"{p.1}:" ++ num p.2) ++ "]"

/-- The names of the families, as messages list them: `[A B C]`. -/
def names (xs : List String) : String := "[" ++ String.intercalate " " xs ++ "]"

/-- The text of an error: its class, then what happened. -/
def message : ElementError → String
  | .indexRange w i n => s!"fe: index out of range: {w.name} = {i}, valid range is [0,{n})"
  | .maskSizes a b => s!"fe: dimension mismatch: cannot combine masks of size {a} and {b}"
  | .unsupportedCell e => "fe: invalid element data: " ++ e.message
  | .countsLength d n =>
    s!"fe: invalid element data: need {d + 1} per-object dof counts in {d} dimensions, have {n}"
  | .negativeCount n k =>
    s!"fe: invalid element data: negative dof count {n} for objects of dimension {k}"
  | .noComponents c => s!"fe: invalid element data: need at least one vector component, have {c}"
  | .noDofs => "fe: invalid element data: element has no degrees of freedom"
  | .definitionCell name e => "fe: invalid element data: element " ++ name ++ ": " ++ e.message
  | .unnamed => "fe: invalid element data: element has no name"
  | .emptyElement name d c =>
    "fe: invalid element data: element " ++ name ++ s!" has {d} dofs and {c} components"
  | .additivityCount name n d =>
    "fe: invalid element data: element " ++ name ++
      s!" has {n} restriction additivity flags for {d} dofs"
  | .maskCount name n d =>
    "fe: invalid element data: element " ++ name ++ s!" has {n} nonzero component masks for {d} dofs"
  | .maskSize name i s c =>
    "fe: dimension mismatch: element " ++ name ++ s!": mask of shape function {i} has size {s}, need {c}"
  | .zeroShape name i =>
    "fe: invalid element data: element " ++ name ++ s!": shape function {i} is zero in every component"
  | .inElement name e => "element " ++ name ++ ": " ++ e.message
  | .transferCount k p n c =>
    s!"fe: transfer matrices have the wrong size: {p} of {n} {k.name} matrices populated, need all {c} or none"
  | .transferShape k c r cc d =>
    s!"fe: transfer matrices have the wrong size: {k.name} matrix of child {c} is {r}x{cc}, need {d}x{d}"
  | .projectionVoid name => "fe: restriction matrices are not implemented: " ++ name
  | .embeddingVoid name => "fe: prolongation matrices are not implemented: " ++ name
  | .constraintsVoid name => "fe: interface constraints are not implemented: " ++ name
  | .constraintShape r c m n =>
    s!"fe: interface constraint matrix has the wrong size: have {r}x{c}, need {m}x{n}"
  | .offLine row l w col =>
    s!"fe: constraint weights are inconsistent: row {row} of face line {l} has weight " ++ num w ++
      s!" on column {col} off the line"
  | .onFaceLine l row e => s!"face line {l} row {row}: " ++ e.message
  | .columnsWeights c w => s!"fe: dimension mismatch: {c} columns and {w} weights"
  | .weightDiffers row col w g =>
    s!"fe: constraint weights are inconsistent: row {row} column {col} has weight " ++ num w ++
      ", adding " ++ num g
  | .weightMissing row col g =>
    s!"fe: constraint weights are inconsistent: row {row} column {col} has no weight, adding " ++ num g
  | .notPrimitive name i m =>
    "fe: shape function is not primitive: " ++ name ++ s!" shape function {i} is nonzero in components " ++
      m.text
  | .faceNotPrimitive name i c =>
    "fe: shape function is not primitive: " ++ name ++
      s!" face shape function {i} (cell shape function {c}) is not primitive"
  | .noComponentIndex name c i =>
    "fe: component-index pair does not exist: " ++ name ++
      s!" has no shape function with component {c} and index {i}"
  | .componentMaskSize s name c =>
    s!"fe: dimension mismatch: component mask has size {s}, element " ++ name ++ s!" has {c} components"
  | .partialBlock m b =>
    "fe: component-index pair does not exist: component mask " ++ m.text ++ s!" selects only part of block {b}"
  | .unknownPackingLabel label =>
    "fe: invalid element data: unknown packing " ++ Text.quote label ++ ", use interleaved or blocked"
  | .noBases => "fe: invalid element data: a composite needs at least one base element"
  | .unknownPacking p => "fe: invalid element data: unknown packing " ++ p.text
  | .missingBase b => s!"fe: invalid element data: base element {b} is nil"
  | .badMultiplicity b name m =>
    s!"fe: invalid element data: base element {b} (" ++ name ++ s!") has multiplicity {m}"
  | .baseDimension b name d d0 =>
    s!"fe: dimension mismatch: base element {b} (" ++ name ++ s!") is {d}D, base element 0 is {d0}D"
  | .notEntityOrdered b name =>
    s!"fe: invalid element data: base element {b} (" ++ name ++
      ") is not entity ordered and cannot be interleaved"
  | .degreeTooLow family least n =>
    "fe: invalid element data: " ++ family ++ s!" needs degree >= {least}, have {n}"
  | .onlyLowestDegree family n =>
    "fe: invalid element data: " ++ family ++ s!" is only available for degree 0, have {n}"
  | .planeOrSolidOnly family d =>
    "fe: invalid element data: " ++ family ++ s!" needs dim 2 or 3, have {d}"
  | .unreadableName name => "fe: invalid element data: cannot parse element name " ++ Text.quote name
  | .unknownFamily family known =>
    "fe: invalid element data: unknown element family " ++ Text.quote family ++ ", have " ++ names known
  | .nameDimension name nd d =>
    "fe: dimension mismatch: element " ++ Text.quote name ++ s!" is {nd}D, requested {d}D"
  | .degreeOutOfRange name digits =>
    "fe: invalid element data: bad degree in " ++ Text.quote name ++ ": strconv.Atoi: parsing " ++
      Text.quote digits ++ ": value out of range"
  | .noSupportPoints name => "elements: element has no support points: " ++ name
  | .sharedDofDiffers name c f x j v w =>
    "elements: transfer law violated: " ++ name ++ s!" child {c} dof {f} at " ++ nums x ++
      s!", coarse dof {j}: " ++ num v ++ " != " ++ num w
  | .nonAdditiveRow name i c j v want =>
    "elements: transfer law violated: " ++ name ++ s!" non-additive row {i} child {c}: entry {j} is " ++
      num v ++ ", want " ++ num want
  | .contributingChildren name i n =>
    "elements: transfer law violated: " ++ name ++ s!" non-additive row {i} has {n} contributing children"
  | .additiveRow name i j v want =>
    "elements: transfer law violated: " ++ name ++ s!" additive row {i}: entry {j} is " ++ num v ++
      ", want " ++ num want
  | .sharedLineWeights name l k f0 w0 f1 w1 =>
    "fe: constraint weights are inconsistent: " ++ name ++ s!" line {l} dof {k}: face {f0} weights " ++
      weightMap w0 ++ s!", face {f1} weights " ++ weightMap w1
  | .noBasesListed name => "fe: invalid element data: element " ++ Text.quote name ++ " lists no bases"
  | .inBase name b e => "element " ++ Text.quote name ++ s!" base {b}: " ++ e.message
  | .roundTrip i c k j =>
    s!"fe: component-index pair does not exist: shape function {i} maps to \x7b{c} {k}\x7d and back to {j}"
  | .cell e => e.message
  | .matrix e => e.message
  | .basis e => e.message
  | .quadrature e => e.message
  | .fault f => f.message

end ElementError

/-- A failed call. -/
inductive Failure where
  /-- The call answers with an error. -/
  | reported (e : ElementError)
  /-- The call stops: one of its preconditions does not hold. -/
  | aborted (e : ElementError)
deriving Repr, Inhabited

namespace Failure

/-- The error of a failure. -/
def error : Failure → ElementError
  | .reported e | .aborted e => e

/-- Whether the call stopped rather than answered. -/
def aborts : Failure → Bool
  | .reported _ => false
  | .aborted _ => true

/-- Adds context to a reported error; an aborted call passes through unchanged. -/
def within (f : ElementError → ElementError) : Failure → Failure
  | .reported e => .reported (f e)
  | .aborted e => .aborted e

end Failure

/-- Computations that may fail. -/
abbrev Outcome (α : Type) := Except Failure α

/-- Stops with a cell error; questions about reference cells have preconditions only. -/
def liftCell {α : Type} (x : Except CellError α) : Outcome α :=
  x.mapError fun e => .aborted (.cell e)

/-- Stops with a fault of plain data access. -/
def liftFault {α : Type} (x : Except Fault α) : Outcome α :=
  x.mapError fun f => .aborted (.fault f)

/-- Stops with a matrix error. -/
def liftMatrix {α : Type} (x : Except MatrixError α) : Outcome α :=
  x.mapError fun e => .aborted (.matrix e)

/-- Stops with a basis error. -/
def liftBasis {α : Type} (x : Except BasisError α) : Outcome α :=
  x.mapError fun e => .aborted (.basis e)

/-- The position `i` in `[0, n)`, or a stop naming what `i` counts. -/
def checkIndex (what : Counted) (i : Int) (n : Int) : Outcome Nat :=
  if 0 ≤ i ∧ i < n then .ok i.toNat else .error (.aborted (.indexRange what i n))

/-- A reported error. -/
def report {α : Type} (e : ElementError) : Outcome α := .error (.reported e)

/-- A stop. -/
def abort {α : Type} (e : ElementError) : Outcome α := .error (.aborted e)

end FiniteElements.Element
