import FiniteElements.Input.Shape
import FiniteElements.Yaml.Value

/-!
# From YAML values to JSON documents

Input files are YAML, read as JSON: `toJson` turns a YAML value into a JSON document, with the
shape the document will be read into as a guide.

* Keys become text: integers in decimal, doubles by their shortest single-precision digits (with
  `.inf`, `-.inf` and `.nan` for the special values), booleans as `true` and `false`. A null key,
  or an integer beyond the signed 64-bit range, has no text and is an error.
* A number or boolean in a place that holds text becomes its text (doubles again by their shortest
  single-precision digits), so `Name: 12` names `"12"`.
* Objects keep their keys in increasing order; of two equal keys the later value stays.

A JSON document cannot hold NaN or an infinity: `unsupportedIn` finds the first one, keys taken in
order, which makes the document unwritable.

## Main definitions

* `FiniteElements.Input.Json`, `FiniteElements.Input.Number.text`
* `FiniteElements.Input.toJson`, `FiniteElements.Input.unsupportedIn`
-/

namespace FiniteElements.Input

open Yaml

/-- A JSON number: an integer or a double. -/
inductive Number where
  | integer (n : Int)
  | double (x : Float)
deriving Inhabited

/-- A JSON document. Objects have increasing keys. -/
inductive Json where
  | null
  | bool (b : Bool)
  | number (n : Number)
  | string (s : String)
  | array (items : List Json)
  | object (fields : List (String × Json))
deriving Inhabited

/-- How JSON writes doubles: shortest digits, positional from `1e-6` up to `1e21`. -/
def jsonNotation : Decimal.Notation :=
  { scientificBelow := -6, scientificFrom := 21, exponentDigits := 1,
    positiveInfinity := "+Inf", negativeInfinity := "-Inf", notANumber := "NaN" }

/-- The text of a JSON number. -/
def Number.text : Number → String
  | .integer n => toString n
  | .double x => jsonNotation.float x

/-- The shortest text of a double read back in single precision, exponent form below `1e-4` and
from `1e+06`. -/
def singleText (x : Float) : String :=
  Decimal.Notation.general.spell Decimal.Binary.shortest (Decimal.classifySingle x)

/-- Adds a field to an object with increasing keys; a field of the same key is replaced. -/
def insertField (k : String) (v : Json) : List (String × Json) → List (String × Json)
  | [] => [(k, v)]
  | (k', v') :: rest =>
    if k == k' then (k, v) :: rest
    else if k < k' then (k, v) :: (k', v') :: rest
    else (k', v') :: insertField k v rest

/-- A value as a message shows it at the top level. -/
def valueText : Value → String
  | .null => "<nil>"
  | v => v.show

/-- Lowercase hexadecimal digits of a natural number. -/
def hexText (n : Nat) : String := String.ofList (Nat.toDigits 16 n)

/-- The text of a mapping key, or why it has none. -/
def keyText (k v : Value) : Except String String :=
  let unsupported (type key : String) : Except String String :=
    .error ("Unsupported map key of type: " ++ type ++ ", key: " ++ key ++ ", value: " ++
      valueText v)
  match k with
  | .str s => .ok s
  | .int n => if n < Int.pow 2 63 then .ok (toString n) else unsupported "uint64" ("0x" ++ hexText n.toNat)
  | .float x =>
    let s := singleText x
    .ok (if s == "+Inf" then ".inf" else if s == "-Inf" then "-.inf" else if s == "NaN" then ".nan"
      else s)
  | .bool b => .ok (if b then "true" else "false")
  | .null => unsupported "%!s(<nil>)" "<nil>"
  | .seq _ => unsupported "[]interface \x7b\x7d" k.show
  | .map _ => unsupported "map[interface \x7b\x7d]interface \x7b\x7d" k.show

/-- Whether a place holds text. -/
def holdsText : Option Shape → Bool
  | some .text => true
  | _ => false

/-- The shape of the items of a list place. -/
def itemTarget : Option Shape → Option Shape
  | some (.list item) => some item
  | _ => none

/-- The shape of the field a key names in a record place. -/
def fieldTarget (target : Option Shape) (key : String) : Option Shape :=
  match target with
  | some (.record _ fields) => fieldShape fields key
  | _ => none

mutual

/-- The JSON document of a YAML value in a place of the given shape (`none`: unknown). -/
def toJson (target : Option Shape) : Value → Except String Json
  | .null => .ok .null
  | .bool b => .ok (if holdsText target then .string (if b then "true" else "false") else .bool b)
  | .int n => .ok (if holdsText target then .string (toString n) else .number (.integer n))
  | .float x => .ok (if holdsText target then .string (singleText x) else .number (.double x))
  | .str s => .ok (.string s)
  | .seq items => .array <$> itemsToJson (itemTarget target) items
  | .map entries => .object <$> entriesToJson target [] entries

/-- The JSON documents of the items of a sequence. -/
def itemsToJson (target : Option Shape) : List Value → Except String (List Json)
  | [] => .ok []
  | v :: rest => do
    let j ← toJson target v
    let js ← itemsToJson target rest
    pure (j :: js)

/-- Adds the entries of a mapping to the fields of an object. -/
def entriesToJson (target : Option Shape) (acc : List (String × Json)) :
    List (Value × Value) → Except String (List (String × Json))
  | [] => .ok acc
  | (k, v) :: rest => do
    let key ← keyText k v
    let j ← toJson (fieldTarget target key) v
    entriesToJson target (insertField key j acc) rest

end

/-- The text of a double JSON cannot hold. -/
def unwritable (x : Float) : Option String :=
  if x.isNaN then some "NaN" else if x.isInf then some (if x > 0 then "+Inf" else "-Inf") else none

mutual

/-- The first double of a document that JSON cannot hold. -/
def unsupportedIn : Json → Option String
  | .number (.double x) => unwritable x
  | .array items => unsupportedInItems items
  | .object fields => unsupportedInFields fields
  | _ => none

/-- The first double of a list of documents that JSON cannot hold. -/
def unsupportedInItems : List Json → Option String
  | [] => none
  | j :: rest => (unsupportedIn j).orElse fun _ => unsupportedInItems rest

/-- The first double of the fields of an object that JSON cannot hold. -/
def unsupportedInFields : List (String × Json) → Option String
  | [] => none
  | (_, j) :: rest => (unsupportedIn j).orElse fun _ => unsupportedInFields rest

end

end FiniteElements.Input
