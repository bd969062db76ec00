import FiniteElements.Element.Laws
import FiniteElements.Element.Support
import FiniteElements.Constraint.Consistency
import FiniteElements.Text.Columns
import FiniteElements.Partition

/-!
# Reports on elements

The texts the command line prints for an element:

* `describeText`: the name, the layout, the bases with their multiplicities, whether the element
  is primitive and which transfers and constraints it has, then a table of its dofs (their place
  in a base, component index, nonzero components, additivity and the faces they lie on),
  optionally of the dofs of face `0` with their support points, and of its components;
* `constraintsText`: the hanging-node constraints, one line `fi = w*cj + …` per refined dof with
  weights to six significant digits, or the whole matrix;
* `checkElement`: the laws an element must satisfy (component indices lead back to their shape
  function, the transfer laws, consistent constraints); `checkElements` checks a list of
  elements split among workers, each writing the verdicts of its bucket of the list into a
  shared result list, and `checkText` lists the verdicts.

## Main definitions

* `FiniteElements.Command.describeText`, `FiniteElements.Command.constraintsText`
* `FiniteElements.Command.checkElement`, `FiniteElements.Command.checkElements`,
  `FiniteElements.Command.checkText`
-/

namespace FiniteElements.Command

open Element Constraint Text

/-- How tables are aligned: columns two spaces wider than their widest cell. -/
def tableStyle : ColumnStyle := ⟨0, 2⟩

/-- `implemented` or `not implemented`. -/
def implementedText (ok : Bool) : String := if ok then "implemented" else "not implemented"

/-- `true` or `false`. -/
def boolText (b : Bool) : String := if b then "true" else "false"

/-- Natural numbers as a bracketed list separated by blanks: `[0 2]`. -/
def natsText (xs : List Nat) : String := "[" ++ String.intercalate " " (xs.map toString) ++ "]"

/-- A point as a bracketed list of its coordinates separated by blanks. -/
def pointText (x : List Float) : String :=
  "[" ++ String.intercalate " " (x.map Decimal.floatText) ++ "]"

/-- A component index `component,index`, or `non-primitive`. -/
def componentIndexText (ci : Outcome ComponentIndex) : String :=
  match ci with
  | .ok ci => toString ci.component ++ "," ++ toString ci.index
  | .error _ => "non-primitive"

/-- A place in a base `base,instance,index`. -/
def baseIndexText (bi : BaseIndex) : String :=
  toString bi.base ++ "," ++ toString bi.copy ++ "," ++ toString bi.index

/-- The value of a query that cannot fail for the arguments given. -/
def known {α : Type} [Inhabited α] (x : Outcome α) : α := match x with
  | .ok v => v
  | .error _ => default

/-- The lines before the table: name, layout, bases, primitivity, transfers and constraints. -/
def summaryText (e : Element) : String :=
  let s := e.store
  let fd := s.layout
  let (m, n) := fd.constraintsSize
  let bases := (List.range e.nBaseElements).map fun (b : Nat) =>
    "\tbase " ++ toString b ++ ": " ++ (known (e.baseElement b)).name ++ " x" ++
      toString (known (e.elementMultiplicity b)) ++ "\n"
  e.name ++ "\n\t" ++ fd.text ++ "\n" ++ String.join bases ++
    "\tprimitive: " ++ boolText s.isPrimitive ++ "\n" ++
    "\trestriction: " ++ implementedText s.restrictionIsImplemented ++ "\n" ++
    "\tprolongation: " ++ implementedText s.prolongationIsImplemented ++ "\n" ++
    "\tconstraints: " ++ toString m ++ "x" ++ toString n ++ " " ++
      implementedText s.constraintsAreImplemented ++ "\n"

/-- The rows of the dof table, cells ended by tabs. -/
def dofRows (s : Store) : List String :=
  let header := "\tdof\tbase,instance,index\tcomponent,index\tnonzero\tadditive\ton faces\n"
  header :: (List.range s.dofsPerCell.toNat).map fun (i : Nat) =>
    let faces := (List.range s.cell.facesPerCell).filter fun (f : Nat) =>
      known (s.hasSupportOnFace i f)
    "\t" ++ toString i ++ "\t" ++ baseIndexText (known (s.systemToBaseIndex i)) ++ "\t" ++
      componentIndexText (s.systemToComponentIndex i) ++ "\t" ++
      (known (s.nonzeroComponents i)).text ++ "\t" ++
      boolText (known (s.restrictionIsAdditive i)) ++ "\t" ++ natsText faces ++ "\n"

/-- The rows of the table of the dofs of face `0`, with their support points when known. -/
def faceRows (e : Element) : List String :=
  let s := e.store
  let points := e.faceSupportPoints
  let header :=
    "\tface dof\tbase,instance,index\tcomponent,index\tcell dof on face 0\tsupport point\n"
  header :: (List.range s.layout.dofsPerFace.toNat).map fun (i : Nat) =>
    let point := match points with
      | .ok ps => pointText (ps.getD i [])
      | .error _ => "-"
    "\t" ++ toString i ++ "\t" ++ baseIndexText (known (s.faceSystemToBaseIndex i)) ++ "\t" ++
      componentIndexText (s.faceSystemToComponentIndex i) ++ "\t" ++
      toString (known (s.faceToCellIndex i 0)) ++ "\t" ++ point ++ "\n"

/-- The rows of the component table. -/
def componentRows (s : Store) : List String :=
  "\tcomponent\tbase,component\n" :: (List.range s.components.toNat).map fun (c : Nat) =>
    let bc := known (s.componentToBase c)
    "\t" ++ toString c ++ "\t" ++ toString bc.base ++ "," ++ toString bc.component ++ "\n"

/-- The description of an element, with the face table when `faces` is set. -/
def describeText (e : Element) (faces : Bool) : String :=
  let s := e.store
  let rows := dofRows s ++ (if faces then faceRows e else []) ++ componentRows s
  summaryText e ++ alignColumns tableStyle (String.join rows)

/-- The name of a group of constrained entities. -/
def groupName : Group → String
  | .vertex => "vertex"
  | .line => "line"
  | .quad => "quad"

/-- Run-length text of groups: `5 vertex, 12 line, 4 quad`. -/
def groupsText (groups : List Group) : String :=
  let runs := groups.foldl (fun (acc : List (Group × Nat)) g =>
    match acc with
    | (h, n) :: rest => if h == g then (h, n + 1) :: rest else (g, 1) :: (h, n) :: rest
    | [] => [(g, 1)]) []
  String.intercalate ", " (runs.reverse.map fun (g, n) => toString n ++ " " ++ groupName g)

/-- The constraint line of a row: `fi = w*cj + …`. -/
def constraintLine (i : Nat) (terms : List (Nat × Float)) : String :=
  "\tf" ++ toString i ++ " = " ++
    String.intercalate " + " (terms.map fun (c, w) =>
      Decimal.Notation.general.floatSignificant 6 w ++ "*c" ++ toString c) ++ "\n"

/-- The constraints of an element, with what was written before a failure. -/
def constraintsText (e : Element) (dense : Bool) : String × Option Failure :=
  let s := e.store
  let head := e.name ++ "\n"
  if !s.constraintsAreImplemented then (head ++ "\tnot implemented\n", none)
  else
    match s.interfaceConstraints with
    | .error f => (head, some f)
    | .ok C =>
      if C.isEmpty then (head ++ "\tno constrained dofs\n", none)
      else
        let dim := s.layout.dim
        let head := head ++ "\trows: " ++ groupsText (rowGroups dim) ++ "\n\tcolumns: " ++
          groupsText (columnGroups dim) ++ "\n"
        if dense then (head ++ C.text ++ "\n", none)
        else
          let cols := (List.range C.cols).map Int.ofNat
          let added := (List.range C.rows).foldlM
            (fun cs (i : Nat) => cs.addLine i cols (C.getRow i))
            (ConstraintSet.empty C.rows C.cols)
          match added with
          | .error err => (head, some (.reported err))
          | .ok cs =>
            let lines := (List.range C.rows).map fun (i : Nat) => constraintLine i (cs.line? i)
            (head ++ String.join lines, none)

/-- Checks that every primitive shape function's component index leads back to it. -/
def checkRoundTrips (s : Store) : Outcome Unit :=
  (List.range s.dofsPerCell.toNat).forM fun (i : Nat) => do
    if ← s.isPrimitiveShape i then
      let ci ← s.systemToComponentIndex i
      let j ← s.componentToSystemIndex ci.component ci.index
      if j != i then report (.roundTrip i ci.component ci.index j)

/-- Checks the laws of an element with a tolerance for the transfer laws. -/
def checkElement (e : Element) (tol : Float) : Outcome Unit := do
  let s := e.store
  checkRoundTrips s
  e.checkTransferLaws tol
  if s.constraintsAreImplemented then
    let C ← s.interfaceConstraints
    consistentAlongLines s.layout C
    e.checkSharedLineConstraints

/-- The split of `count` elements among `workers` workers: a bucket per worker, but no more
buckets than elements, and at least one. -/
def checkPartition (count : Nat) (workers : Int) : PartitionMap :=
  PartitionMap.new (min workers (max (count : Int) 1)) count

/-- Checks element `k` and writes its name and verdict into position `k` of the results. -/
def checkInto (els : List Element) (tol : Float) (results : List (String × Outcome Unit))
    (k : Int) : Outcome (List (String × Outcome Unit)) := do
  let e ← liftFault (checkedIndex els k)
  let _ ← liftFault (checkedIndex results k)
  return results.set k.toNat (e.name, checkElement e tol)

/-- The names and verdicts of the elements. Each worker checks the elements of its bucket and
writes their verdicts into one shared list made for all of them; the buckets do not overlap, so
the workers are run here one after another. -/
def checkElements (els : List Element) (tol : Float) (workers : Int) :
    Outcome (List (String × Outcome Unit)) :=
  let pm := checkPartition els.length workers
  (List.range pm.degree).foldlM (fun results n => (pm.indices n).foldlM (checkInto els tol) results)
    (List.replicate els.length ("", .ok ()))

/-- The verdicts of checks, one line per element, with the number of failures. -/
def checkText (results : List (String × Outcome Unit)) : String × Nat :=
  results.foldl (fun (out, failed) (name, r) =>
    match r with
    | .ok () => (out ++ "ok\t" ++ name ++ "\n", failed)
    | .error f => (out ++ "FAIL\t" ++ name ++ ": " ++ f.error.message ++ "\n", failed + 1)) ("", 0)

end FiniteElements.Command
