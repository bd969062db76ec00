/-!
# Shapes of input documents

An input document is read into a record of a fixed shape: text, whole and real fields, lists and
nested records. A `Datum` is a value of a shape. Reading into a datum that already holds values
keeps what the document does not mention, so a field named twice is read twice, the second time
over the first.

A list keeps, past its items, the items of a longer list it once held: reading a list of `n`
items writes the first `n` slots (reusing what they hold) and then shows only those, but a later
longer list in the same field finds the old items again in its slots. An empty list drops them.

Document keys name fields exactly or up to case: letters compare without case, and the Kelvin
sign `K` and the long `ſ` compare as `K` and `S`. An exact name wins over a folded one.

## Main definitions

* `FiniteElements.Input.Shape`, `FiniteElements.Input.Datum`, `FiniteElements.Input.Shape.zero`
* `FiniteElements.Input.fieldIndex`
-/

namespace FiniteElements.Input

/-- The type of a field of an input document. -/
inductive Shape where
  | text
  | whole
  | real
  | list (item : Shape)
  /-- A record with its qualified type name and its named fields. -/
  | record (name : String) (fields : List (String × Shape))
deriving Inhabited

/-- The type name of a shape in messages. -/
def Shape.typeName : Shape → String
  | .text => "string"
  | .whole => "int"
  | .real => "float64"
  | .list item => "[]" ++ item.typeName
  | .record name _ => name

/-- A value of a shape. -/
inductive Datum where
  | text (s : String)
  | whole (n : Int)
  | real (x : Float)
  /-- A list whose items are the first `length` of its `slots`. -/
  | list (length : Nat) (slots : List Datum)
  | record (fields : List Datum)
deriving Inhabited

mutual

/-- The empty value of a shape: empty text, zero, the empty list, a record of empty fields. -/
def Shape.zero : Shape → Datum
  | .text => .text ""
  | .whole => .whole 0
  | .real => .real 0
  | .list _ => .list 0 []
  | .record _ fields => .record (zeroFields fields)

/-- The empty values of the fields of a record. -/
def zeroFields : List (String × Shape) → List Datum
  | [] => []
  | (_, s) :: rest => s.zero :: zeroFields rest

end

/-- Folds a character of a key for comparison with field names. -/
def foldKeyChar (c : Char) : Char :=
  if 'a' ≤ c && c ≤ 'z' then Char.ofNat (c.toNat - 32)
  else if c.toNat == 0x212A then 'K'
  else if c.toNat == 0x17F then 'S'
  else c

/-- A key folded for comparison with field names. -/
def foldKey (s : String) : String := String.ofList (s.toList.map foldKeyChar)

/-- The field a key names: the field of exactly that name, else the first whose name folds to the
same text. -/
def fieldIndex (fields : List (String × Shape)) (key : String) : Option Nat :=
  match fields.findIdx? (·.1 == key) with
  | some i => some i
  | none => fields.findIdx? fun f => foldKey f.1 == foldKey key

/-- The shape of the field a key names. -/
def fieldShape (fields : List (String × Shape)) (key : String) : Option Shape :=
  (fieldIndex fields key).bind fun i => (fields[i]?).map (·.2)

/-- The items of a list datum. -/
def Datum.items : Datum → List Datum
  | .list n slots => slots.take n
  | _ => []

/-- The fields of a record datum. -/
def Datum.fields : Datum → List Datum
  | .record fs => fs
  | _ => []

/-- The text of a text datum. -/
def Datum.textD : Datum → String
  | .text s => s
  | _ => ""

/-- The number of a whole datum. -/
def Datum.wholeD : Datum → Int
  | .whole n => n
  | _ => 0

/-- The number of a real datum. -/
def Datum.realD : Datum → Float
  | .real x => x
  | _ => 0

end FiniteElements.Input
