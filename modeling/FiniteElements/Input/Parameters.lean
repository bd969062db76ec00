import FiniteElements.Input.Decode
import FiniteElements.Family.Factory
import FiniteElements.Element.Basic

/-!
# Input parameters

An input file names a title, a dimension, a tolerance and a list of elements; each element lists
its bases, an element name with a multiplicity, and a packing for the bases of a composite:

```
Title: Test Case
Dimension: 2
Elements:
  - Name: stokes
    Packing: interleaved
    Bases:
      - Element: FE_Q(2)
        Multiplicity: 2
      - Element: FE_DGQ(1)
```

`Parameters.read` reads such a file over given parameters (keys match field names up to case); a
tolerance of zero becomes `1e-10` and a multiplicity of zero becomes one. `ElementSpec.build`
makes the element: a single base of multiplicity at most one is that element itself, anything
else the composite of the bases under the packing.

## Main definitions

* `FiniteElements.Input.Parameters`, `FiniteElements.Input.ElementSpec`,
  `FiniteElements.Input.BaseSpec`
* `FiniteElements.Input.Parameters.read`, `FiniteElements.Input.ElementSpec.build`,
  `FiniteElements.Input.Parameters.buildAll`
-/

namespace FiniteElements.Input

open Element

/-- A base of an element: an element name and how many copies. -/
structure BaseSpec where
  element : String
  multiplicity : Int
deriving Repr, Inhabited

/-- An element of an input file: its name, the packing of its bases, and the bases. -/
structure ElementSpec where
  name : String
  packing : String
  bases : List BaseSpec
deriving Repr, Inhabited

/-- The parameters of an input file. -/
structure Parameters where
  title : String
  dimension : Int
  tolerance : Float
  elements : List ElementSpec
deriving Inhabited

/-- The tolerance used when a file gives none. -/
def defaultTolerance : Float := 1e-10

/-- Parameters before a file is read. -/
def Parameters.empty : Parameters := ⟨"", 0, 0, []⟩

/-- The record type of a base. -/
def baseShape : Shape :=
  .record "InputParameters.BaseParameters" [("Element", .text), ("Multiplicity", .whole)]

/-- The record type of an element. -/
def elementShape : Shape :=
  .record "InputParameters.ElementParameters"
    [("Name", .text), ("Packing", .text), ("Bases", .list baseShape)]

/-- The record type of an input file. -/
def parametersShape : Shape :=
  .record "InputParameters.InputParameters"
    [("Title", .text), ("Dimension", .whole), ("Tolerance", .real), ("Elements", .list elementShape)]

/-- The name of the record type of an input file, as paths in messages start. -/
def parametersRoot : String := "InputParameters"

/-- A base as a datum. -/
def BaseSpec.toDatum (b : BaseSpec) : Datum := .record [.text b.element, .whole b.multiplicity]

/-- A base from a datum. -/
def BaseSpec.ofDatum (d : Datum) : BaseSpec :=
  let fs := d.fields
  ⟨(fs.getD 0 default).textD, (fs.getD 1 default).wholeD⟩

/-- An element as a datum. -/
def ElementSpec.toDatum (e : ElementSpec) : Datum :=
  .record [.text e.name, .text e.packing, .list e.bases.length (e.bases.map BaseSpec.toDatum)]

/-- An element from a datum. -/
def ElementSpec.ofDatum (d : Datum) : ElementSpec :=
  let fs := d.fields
  ⟨(fs.getD 0 default).textD, (fs.getD 1 default).textD,
    (fs.getD 2 default).items.map BaseSpec.ofDatum⟩

/-- Parameters as a datum. -/
def Parameters.toDatum (p : Parameters) : Datum :=
  .record [.text p.title, .whole p.dimension, .real p.tolerance,
    .list p.elements.length (p.elements.map ElementSpec.toDatum)]

/-- Parameters from a datum. -/
def Parameters.ofDatum (d : Datum) : Parameters :=
  let fs := d.fields
  ⟨(fs.getD 0 default).textD, (fs.getD 1 default).wholeD, (fs.getD 2 default).realD,
    (fs.getD 3 default).items.map ElementSpec.ofDatum⟩

/-- Why an input file cannot be read. -/
inductive InputError where
  /-- The text is not YAML. -/
  | yaml (e : Yaml.YamlError)
  /-- A mapping key has no text. -/
  | key (text : String)
  /-- A value JSON cannot hold. -/
  | unwritable (what : String)
  /-- A value of the wrong kind for its field. -/
  | mismatch (m : Mismatch)
deriving Inhabited

/-- The text of an input error. -/
def InputError.message : InputError → String
  | .yaml e => "error converting YAML to JSON: " ++ e.message
  | .key text => "error converting YAML to JSON: " ++ text
  | .unwritable what => "error converting YAML to JSON: json: unsupported value: " ++ what
  | .mismatch m => "error unmarshaling JSON: " ++ m.message parametersRoot

/-- Replaces a zero tolerance and zero multiplicities by their defaults. -/
def Parameters.withDefaults (p : Parameters) : Parameters :=
  { p with
    tolerance := if p.tolerance == 0 then defaultTolerance else p.tolerance
    elements := p.elements.map fun e =>
      { e with bases := e.bases.map fun b =>
          { b with multiplicity := if b.multiplicity == 0 then 1 else b.multiplicity } } }

/-- Reads an input file over the given parameters: what the file names replaces what they hold. -/
def Parameters.read (text : String) (start : Parameters) : Except InputError Parameters := do
  let value ← (Yaml.readValue text).mapError .yaml
  let doc ← (toJson (some parametersShape) value).mapError .key
  if let some what := unsupportedIn doc then throw (.unwritable what)
  let d ← (decode [] parametersShape start.toDatum doc).mapError .mismatch
  pure (Parameters.ofDatum d).withDefaults

/-- The text of an element: its bases joined by `-`, a multiplicity above one written `^m`, then
the packing (`interleaved` when empty). -/
def ElementSpec.text (e : ElementSpec) : String :=
  let parts := e.bases.map fun b =>
    if b.multiplicity > 1 then b.element ++ "^" ++ toString b.multiplicity else b.element
  let packing := if e.packing.isEmpty then Packing.interleaved.text else e.packing
  "[" ++ String.intercalate "-" parts ++ "] " ++ packing

/-- Makes the bases of an element, numbering them for errors. -/
def buildBases (name : String) (dim : Int) : Nat → List BaseSpec → Outcome (List (Option Element × Int))
  | _, [] => pure []
  | k, b :: rest => do
    let e ← (Family.ofName b.element dim).mapError (Failure.within (.inBase name k))
    let es ← buildBases name dim (k + 1) rest
    pure ((some e, max b.multiplicity 1) :: es)

/-- The element an input file describes, in `dim` dimensions. -/
def ElementSpec.build (e : ElementSpec) (dim : Int) : Outcome Element :=
  match e.bases with
  | [] => report (.noBasesListed e.name)
  | [b] =>
    if b.multiplicity ≤ 1 then Family.ofName b.element dim else composite
  | _ => composite
where
  /-- The composite of the bases under the packing. -/
  composite : Outcome Element := do
    let packing ← (Packing.ofLabel? e.packing).mapError Failure.reported
    let bases ← buildBases e.name dim 0 e.bases
    Element.compose packing bases

/-- Every element of the parameters, or the first that cannot be made. -/
def Parameters.buildAll (p : Parameters) : Outcome (List Element) :=
  p.elements.mapM fun e => e.build p.dimension

end FiniteElements.Input
