import FiniteElements.Input.Json
import FiniteElements.Decimal.Reading

/-!
# Reading JSON documents into records

`decode` reads a JSON document into a datum of a shape, over the values the datum already holds:

* null leaves text, numbers and records as they are and empties a list;
* a string fills a text field, a number a whole field (when its text is a decimal integer in the
  signed 64-bit range) or a real field, an array a list, an object a record;
* an object's keys name fields (`fieldIndex`); keys that name none are skipped;
* anything else is a `Mismatch`, and reading stops at the first.

A mismatch names what was found (`number 2.5` when a number does not fit a whole field), the
path of field names and list indices to the place, and the type of the place.

## Main definitions

* `FiniteElements.Input.Mismatch`, `FiniteElements.Input.decode`
-/

namespace FiniteElements.Input

/-- A JSON value of the wrong kind for its place. -/
structure Mismatch where
  found : String
  path : List String
  target : String
deriving Repr, Inhabited

/-- The text of a mismatch in a document read into the record type `root`. A place that ends in
a list index is named without the words "Go struct field", which name a field. -/
def Mismatch.message (root : String) (m : Mismatch) : String :=
  let place := root ++ "." ++ String.intercalate "." m.path
  let atIndex := match m.path.getLast? with
    | some last => !last.isEmpty && last.all Char.isDigit
    | none => false
  if m.path.isEmpty then
    "json: cannot unmarshal " ++ m.found ++ " into Go value of type " ++ m.target
  else if atIndex then
    "json: cannot unmarshal " ++ m.found ++ " into " ++ place ++ " of type " ++ m.target
  else
    "json: cannot unmarshal " ++ m.found ++ " into Go struct field " ++ place ++ " of type " ++
      m.target

/-- A signed 64-bit integer in decimal: an optional minus sign and at least one digit. -/
def wholeOfText (s : String) : Option Int :=
  let (negative, ds) := match s.toList with
    | '-' :: rest => (true, rest)
    | cs => (false, cs)
  if ds.isEmpty || !ds.all Char.isDigit then none
  else
    let n := Decimal.digitsOf ds
    if negative then (if n ≤ Nat.pow 2 63 then some (-(n : Int)) else none)
    else if n < Nat.pow 2 63 then some n else none

/-- The double a JSON number reads as. -/
def Number.toFloat : Number → Float
  | .integer n => (Decimal.decimalToFloat (n < 0) n.natAbs 0).getD 0
  | .double x => x

/-- Replaces slot `i` of a list, extending it with `fill` as needed. -/
def setSlot (slots : List Datum) (i : Nat) (d fill : Datum) : List Datum :=
  if i < slots.length then slots.set i d else slots ++ List.replicate (i - slots.length) fill ++ [d]

mutual

/-- Reads a document into a place of a shape holding `current`; `path` leads to the place. -/
def decode (path : List String) (shape : Shape) (current : Datum) : Json → Except Mismatch Datum
  | .null => match shape with
    | .list _ => .ok (.list 0 [])
    | _ => .ok current
  | .bool _ => .error ⟨"bool", path, shape.typeName⟩
  | .string s => match shape with
    | .text => .ok (.text s)
    | _ => .error ⟨"string", path, shape.typeName⟩
  | .number n => match shape with
    | .whole => match wholeOfText n.text with
      | some v => .ok (.whole v)
      | none => .error ⟨"number " ++ n.text, path, shape.typeName⟩
    | .real => .ok (.real n.toFloat)
    | _ => .error ⟨"number", path, shape.typeName⟩
  | .array items => match shape with
    | .list item => do
      let slots ← decodeItems path item 0 (match current with | .list _ s => s | _ => []) items
      pure (if items.isEmpty then .list 0 [] else .list items.length slots)
    | _ => .error ⟨"array", path, shape.typeName⟩
  | .object fields => match shape with
    | .record _ shapeFields => do
      let current := match current with
        | .record fs => fs
        | _ => zeroFields shapeFields
      .record <$> decodeFields path shapeFields current fields
    | _ => .error ⟨"object", path, shape.typeName⟩

/-- Reads the items of an array into the slots of a list, item `i` into slot `i`. -/
def decodeItems (path : List String) (item : Shape) (i : Nat) (slots : List Datum) :
    List Json → Except Mismatch (List Datum)
  | [] => .ok slots
  | j :: rest => do
    let d ← decode (path ++ [toString i]) item (slots.getD i item.zero) j
    decodeItems path item (i + 1) (setSlot slots i d item.zero) rest

/-- Reads the fields of an object, in order, into the fields of a record. -/
def decodeFields (path : List String) (shapeFields : List (String × Shape)) (current : List Datum) :
    List (String × Json) → Except Mismatch (List Datum)
  | [] => .ok current
  | (key, j) :: rest =>
    match fieldIndex shapeFields key with
    | none => decodeFields path shapeFields current rest
    | some k => do
      let (name, fieldShape) := shapeFields.getD k ("", .text)
      let d ← decode (path ++ [name]) fieldShape (current.getD k fieldShape.zero) j
      decodeFields path shapeFields (current.set k d) rest

end

end FiniteElements.Input
