import FiniteElements.Yaml.Node
import FiniteElements.Decimal.Reading
import FiniteElements.Decimal.Notation
import FiniteElements.Text.Quoted
import FiniteElements.Yaml.Timestamp

/-!
# YAML values

`readValue` reads the first document of a YAML text as a value without a schema, by the YAML 1.1
rules for plain scalars:

* `~`, `null` and the empty scalar are null; `y`, `yes`, `true`, `on` and `n`, `no`, `false`,
  `off` (in lower case, capitalised or upper case) are booleans; `.nan` and `.inf` with optional
  sign are the special doubles;
* a scalar starting with a digit or a sign is an integer if it reads as one (underscores dropped;
  `0x`, `0o`, `0b` and a leading `0` for octal), else a double if it has the form
  `[-+](.digits|digits[.digits])[(e|E)[-+]digits]` and is in range;
* a scalar starting with `.` is a double if it reads as one;
* everything else, and every quoted scalar, is a string. Timestamps stay strings.

Explicit tags `!!str`, `!!int`, `!!float`, `!!bool`, `!!null`, `!!timestamp` and `!!binary` are
honoured; a scalar that does not read as its tag is an error, except that an integer may be read
as a double. In a mapping a later key replaces an earlier equal one, and the key `<<` merges the
entries of a mapping, or of a sequence of mappings (the earlier ones winning), into the mapping it
stands in.

## Main definitions

* `FiniteElements.Yaml.Value`, `FiniteElements.Yaml.resolve`, `FiniteElements.Yaml.readValue`
-/

namespace FiniteElements.Yaml

/-- A value read from YAML without a schema. -/
inductive Value where
  | null
  | bool (b : Bool)
  | int (n : Int)
  | float (x : Float)
  | str (s : String)
  | seq (items : List Value)
  | map (entries : List (Value × Value))
deriving Inhabited

/-- The prefix of the standard tags. -/
def standardTagPrefix : String := "tag:yaml.org,2002:"

/-- A standard tag by its short name. -/
def standardTag (name : String) : String := standardTagPrefix ++ name

/-- A tag as messages write it: `!!name` for standard tags. -/
def shortTag (tag : String) : String :=
  if tag.startsWith standardTagPrefix then "!!" ++ String.ofList (tag.toList.drop 18) else tag

/-- The tags whose scalars are resolved by their text. -/
def resolvableTag (tag : String) : Bool :=
  tag.isEmpty || ["str", "bool", "int", "float", "null", "timestamp"].any (standardTag · == tag)

/-- The plain scalars that stand for a fixed value, with its tag. -/
def fixedScalar (text : String) : Option (String × Value) :=
  let nan : Float := 0 / 0
  let inf : Float := 1 / 0
  if ["y", "Y", "yes", "Yes", "YES", "true", "True", "TRUE", "on", "On", "ON"].contains text then
    some (standardTag "bool", .bool true)
  else if ["n", "N", "no", "No", "NO", "false", "False", "FALSE", "off", "Off", "OFF"].contains
      text then
    some (standardTag "bool", .bool false)
  else if ["", "~", "null", "Null", "NULL"].contains text then some (standardTag "null", .null)
  else if [".nan", ".NaN", ".NAN"].contains text then some (standardTag "float", .float nan)
  else if [".inf", ".Inf", ".INF", "+.inf", "+.Inf", "+.INF"].contains text then
    some (standardTag "float", .float inf)
  else if ["-.inf", "-.Inf", "-.INF"].contains text then some (standardTag "float", .float (-inf))
  else if text == "<<" then some (standardTag "merge", .str "<<")
  else none

/-- The value of a digit in bases up to 36. -/
def digitValue (c : Char) : Option Nat :=
  let l := c.toLower
  if c.isDigit then some (c.toNat - '0'.toNat)
  else if 'a' ≤ l && l ≤ 'z' then some (l.toNat - 'a'.toNat + 10)
  else none

/-- The digits of a natural number in a base; `none` unless every character is such a digit. -/
def readDigits (base : Nat) (cs : List Char) : Option Nat :=
  cs.foldlM (fun n c => (digitValue c).bind fun d => if d < base then some (base * n + d) else none)
    0

/-- A natural number with its base given by a prefix (`0b`, `0o`, `0x`, or a leading `0` for
octal), as the integer literals of programs write it. -/
def readPrefixed (cs : List Char) : Option Nat :=
  match cs with
  | [] => none
  | '0' :: p :: rest =>
    if !rest.isEmpty && p.toLower == 'b' then readDigits 2 rest
    else if !rest.isEmpty && p.toLower == 'o' then readDigits 8 rest
    else if !rest.isEmpty && p.toLower == 'x' then readDigits 16 rest
    else readDigits 8 (p :: rest)
  | ['0'] => some 0
  | _ => readDigits 10 cs

/-- A signed 64-bit integer with a base prefix. -/
def readInt64 (cs : List Char) : Option Int :=
  let (negative, body) := match cs with
    | '-' :: rest => (true, rest)
    | '+' :: rest => (false, rest)
    | _ => (false, cs)
  match readPrefixed body with
  | none => none
  | some n =>
    if negative then (if n ≤ Nat.pow 2 63 then some (-(n : Int)) else none)
    else if n < Nat.pow 2 63 then some n else none

/-- An unsigned 64-bit integer with a base prefix. -/
def readUInt64 (cs : List Char) : Option Nat :=
  (readPrefixed cs).bind fun n => if n < Nat.pow 2 64 then some n else none

/-- A signed 64-bit integer in a base, without prefix. -/
def readInt64Base (base : Nat) (cs : List Char) : Option Int :=
  let (negative, body) := match cs with
    | '-' :: rest => (true, rest)
    | '+' :: rest => (false, rest)
    | _ => (false, cs)
  if body.isEmpty then none
  else match readDigits base body with
    | none => none
    | some n =>
      if negative then (if n ≤ Nat.pow 2 63 then some (-(n : Int)) else none)
      else if n < Nat.pow 2 63 then some n else none

/-- Whether a text has the form `[-+](.digits|digits[.digits])[(e|E)[-+]digits]`. -/
def floatForm (s : String) : Bool :=
  let cs := match s.toList with
    | c :: rest => if c == '-' || c == '+' then rest else c :: rest
    | [] => []
  let digits (cs : List Char) : Nat := (cs.takeWhile Char.isDigit).length
  let mantissaEnd : Option (List Char) :=
    match cs with
    | '.' :: rest => if digits rest > 0 then some (rest.drop (digits rest)) else none
    | _ =>
      let n := digits cs
      if n == 0 then none
      else match cs.drop n with
        | '.' :: rest => some (rest.drop (digits rest))
        | rest => some rest
  match mantissaEnd with
  | none => false
  | some [] => true
  | some (e :: rest) =>
    let rest := match rest with
      | c :: r => if c == '-' || c == '+' then r else c :: r
      | [] => []
    (e == 'e' || e == 'E') && digits rest > 0 && digits rest == rest.length

/-- The tag and value of a scalar by its text alone (the tag decides only whether dates are
recognised and whether text is kept as a string). -/
def resolveText (tag text : String) : String × Value :=
  let strTag := standardTag "str"
  let hint := text.toList.head?.map fun c =>
    if c.isDigit then 'D' else if c == '+' || c == '-' then 'S' else if c == '.' then '.'
    else if "yYnNtTfFoO~".contains c then 'M' else ' '
  let hint := hint.getD 'N'
  if hint == ' ' || tag == strTag || tag == standardTag "binary" then (strTag, .str text)
  else
    match fixedScalar text with
    | some r => r
    | none =>
      if hint == '.' then
        match Decimal.readFloat text with
        | some x => (standardTag "float", .float x)
        | none => (strTag, .str text)
      else if hint == 'D' || hint == 'S' then
        if (tag.isEmpty || tag == standardTag "timestamp") && isTimestamp text then
          (standardTag "timestamp", .str text)
        else
          let plain := text.toList.filter (· != '_')
          match readInt64 plain with
          | some n => (standardTag "int", .int n)
          | none =>
            match readUInt64 plain with
            | some n => (standardTag "int", .int n)
            | none =>
              let asFloat :=
                if floatForm (String.ofList plain) then Decimal.readFloat (String.ofList plain)
                else none
              match asFloat with
              | some x => (standardTag "float", .float x)
              | none =>
                match plain with
                | '0' :: 'b' :: digits =>
                  match readInt64Base 2 digits with
                  | some n => (standardTag "int", .int n)
                  | none =>
                    match readDigits 2 digits with
                    | some n =>
                      if n < Nat.pow 2 64 && !digits.isEmpty then (standardTag "int", .int n)
                      else (strTag, .str text)
                    | none => (strTag, .str text)
                | '-' :: '0' :: 'b' :: digits =>
                  match readInt64Base 2 ('-' :: digits) with
                  | some n => (standardTag "int", .int n)
                  | none => (strTag, .str text)
                | _ => (strTag, .str text)
      else (strTag, .str text)

/-- A text between grave accents. -/
def graveQuoted (s : String) : String := "\x60" ++ s ++ "\x60"

/-- The tag and value of a scalar with an explicit (or empty) tag. A tag other than the standard
scalar tags keeps the text as a string; a standard tag must match what the text reads as,
except that an integer is read as a double when the tag asks for one. -/
def resolve (tag text : String) : Except YamlError (String × Value) :=
  if !resolvableTag tag then .ok (tag, .str text)
  else
    let (rtag, v) := resolveText tag text
    if tag.isEmpty || tag == rtag || tag == standardTag "str" then .ok (rtag, v)
    else
      let failure : Except YamlError (String × Value) :=
        .error (.composition ("cannot decode " ++ shortTag rtag ++ " " ++ graveQuoted text ++
          " as a " ++ shortTag tag))
      if tag == standardTag "float" && rtag == standardTag "int" then
        match v with
        | .int n =>
          if n < Int.pow 2 63 then
            match Decimal.decimalToFloat (n < 0) n.natAbs 0 with
            | some x => .ok (standardTag "float", .float x)
            | none => failure
          else failure
        | _ => failure
      else failure

/-- The value of a base-64 character. -/
def base64Value (c : Char) : Option Nat :=
  if 'A' ≤ c && c ≤ 'Z' then some (c.toNat - 'A'.toNat)
  else if 'a' ≤ c && c ≤ 'z' then some (c.toNat - 'a'.toNat + 26)
  else if c.isDigit then some (c.toNat - '0'.toNat + 52)
  else if c == '+' then some 62
  else if c == '/' then some 63
  else none

/-- The octets of padded base-64 text; line breaks are ignored. -/
def base64Octets (s : String) : Option (List Nat) :=
  let cs := s.toList.filter fun c => c != '\n' && c != '\r'
  if cs.length % 4 != 0 then none
  else
    let groups := (List.range (cs.length / 4)).map fun i => (cs.drop (4 * i)).take 4
    let last := groups.length
    groups.zipIdx.foldlM (fun acc (g, i) =>
      match g with
      | [a, b, c, d] =>
        let pad := (if d == '=' then 1 else 0) + (if c == '=' then 1 else 0)
        if pad > 0 && i + 1 != last then none
        else if c == '=' && d != '=' then none
        else
          let vals := [a, b, c, d].take (4 - pad) |>.mapM base64Value
          vals.map fun vs =>
            let n := vs.foldl (fun n v => 64 * n + v) 0 * Nat.pow 64 pad
            acc ++ ([n / 65536 % 256, n / 256 % 256, n % 256].take (3 - pad))
      | _ => none) []

/-- The character a well-formed UTF-8 sequence at the head of `octets` encodes, with the
sequence's length: no overlong form, no surrogate, nothing beyond `U+10FFFF`. -/
def utf8Head? : List Nat → Option (Char × Nat)
  | [] => none
  | b0 :: rest =>
    let inRange (lo hi b : Nat) : Bool := lo ≤ b && b ≤ hi
    let tail := fun (b : Nat) => b - 0x80
    if b0 < 0x80 then some (Char.ofNat b0, 1)
    else if inRange 0xC2 0xDF b0 then
      match rest with
      | b1 :: _ => if inRange 0x80 0xBF b1 then some (Char.ofNat ((b0 - 0xC0) * 64 + tail b1), 2)
        else none
      | _ => none
    else if inRange 0xE0 0xEF b0 then
      let lo := if b0 == 0xE0 then 0xA0 else 0x80
      let hi := if b0 == 0xED then 0x9F else 0xBF
      match rest with
      | b1 :: b2 :: _ =>
        if inRange lo hi b1 && inRange 0x80 0xBF b2 then
          some (Char.ofNat ((b0 - 0xE0) * 4096 + tail b1 * 64 + tail b2), 3)
        else none
      | _ => none
    else if inRange 0xF0 0xF4 b0 then
      let lo := if b0 == 0xF0 then 0x90 else 0x80
      let hi := if b0 == 0xF4 then 0x8F else 0xBF
      match rest with
      | b1 :: b2 :: b3 :: _ =>
        if inRange lo hi b1 && inRange 0x80 0xBF b2 && inRange 0x80 0xBF b3 then
          some (Char.ofNat ((b0 - 0xF0) * 262144 + tail b1 * 4096 + tail b2 * 64 + tail b3), 4)
        else none
      | _ => none
    else none

/-- The characters of octets read as UTF-8, at most `fuel` of them: an octet that does not start
a well-formed sequence stands for one replacement character, and reading goes on at the next
octet. -/
def octetChars : Nat → List Nat → List Char
  | 0, _ => []
  | _, [] => []
  | fuel + 1, o :: rest =>
    match utf8Head? (o :: rest) with
    | some (c, n) => c :: octetChars fuel ((o :: rest).drop n)
    | none => Char.ofNat 0xFFFD :: octetChars fuel rest

/-- Text from octets: UTF-8 where valid, one replacement character for each octet that does not
start a well-formed sequence. -/
def octetText (octets : List Nat) : String :=
  String.ofList (octetChars octets.length octets)

/-- Whether two keys are the same key of a mapping. -/
def Value.sameKey : Value → Value → Bool
  | .null, .null => true
  | .bool a, .bool b => a == b
  | .int a, .int b => a == b
  | .float a, .float b => a == b
  | .str a, .str b => a == b
  | _, _ => false

/-- Sets a key of a mapping, replacing the value of an equal key. -/
def setEntry (entries : List (Value × Value)) (k v : Value) : List (Value × Value) :=
  if entries.any (·.1.sameKey k) then entries.map fun e => if e.1.sameKey k then (k, v) else e
  else entries ++ [(k, v)]

/-- Whether a mapping key is the merge key `<<`. -/
def Node.isMerge : Node → Bool
  | .scalar value tag implicit => value == "<<" && (implicit || tag == standardTag "merge")
  | _ => false

mutual

/-- The text of a value in messages about keys. -/
def Value.show : Value → String
  | .null => "interface \x7b\x7d(nil)"
  | .bool b => toString b
  | .int n => toString n
  | .float x => Decimal.floatText x
  | .str s => Text.quote s
  | .seq items => "[]interface \x7b\x7d\x7b" ++ showItems items ++ "\x7d"
  | .map entries => "map[interface \x7b\x7d]interface \x7b\x7d\x7b" ++ showEntries entries ++ "\x7d"

/-- The texts of values, separated by commas. -/
def showItems : List Value → String
  | [] => ""
  | [v] => v.show
  | v :: rest => v.show ++ ", " ++ showItems rest

/-- The texts of entries `key:value`, separated by commas. -/
def showEntries : List (Value × Value) → String
  | [] => ""
  | [(k, v)] => k.show ++ ":" ++ v.show
  | (k, v) :: rest => k.show ++ ":" ++ v.show ++ ", " ++ showEntries rest

end

/-- The error of a merge whose value is neither a mapping nor a sequence of mappings. -/
def mergeError : YamlError := .composition "map merge requires map or sequence of maps as the value"

/-- What the decoder has counted so far: the values it made, and how many of them it made while
expanding an alias. -/
structure Tally where
  decodes : Nat
  aliased : Nat
deriving Inhabited

/-- Decoding steps: they count the values made and may fail. -/
abbrev DecodeM := StateT Tally (Except YamlError)

/-- The share of the values made that may come from expanding aliases once `decodes` values are
made: 99% up to 400000 values, 10% from 4000000 values on, falling linearly in between. -/
def allowedAliasShare (decodes : Nat) : Float :=
  if decodes ≤ 400000 then 0.99
  else if decodes ≥ 4000000 then 0.10
  else 0.99 - 0.89 * ((decodes - 400000).toFloat / 3600000.0)

/-- Counts one more value, made inside an alias or not. A document of more than 1000 values of
which more than 100, and more than the allowed share, come from aliases is refused: this bounds
the work that aliases of aliases can multiply. -/
def countValue (inAlias : Bool) : DecodeM Unit := do
  let t ← get
  let t : Tally := ⟨t.decodes + 1, if inAlias then t.aliased + 1 else t.aliased⟩
  set t
  if t.aliased > 100 && t.decodes > 1000 &&
      t.aliased.toFloat / t.decodes.toFloat > allowedAliasShare t.decodes then
    throw (.composition "document contains excessive aliasing")

mutual

/-- The value of a node, counted as made inside an alias when `inAlias` holds. An alias inside its
own node is an error. -/
def decodeNode (inAlias : Bool) : Nat → Node → DecodeM Value
  | 0, _ => pure .null
  | _ + 1, .scalar value tag implicit => do
    countValue inAlias
    if tag.isEmpty && !implicit then pure (.str value)
    else
      let (rtag, v) ← resolve tag value
      if rtag == standardTag "binary" then
        match base64Octets value with
        | some octets => pure (.str (octetText octets))
        | none => throw (.composition "!!binary value contains invalid base64 data")
      else pure v
  | fuel + 1, .alias name target => do
    countValue inAlias
    match target with
    | some n => decodeNode true fuel n
    | none => throw (.composition ("anchor '" ++ name ++ "' value contains itself"))
  | fuel + 1, .sequence items => do
    countValue inAlias
    .seq <$> decodeItems inAlias fuel items
  | fuel + 1, .mapping entries => do
    countValue inAlias
    .map <$> decodeEntries inAlias fuel [] entries

/-- The values of the items of a sequence. -/
def decodeItems (inAlias : Bool) : Nat → List Node → DecodeM (List Value)
  | _, [] => pure []
  | 0, _ => pure []
  | fuel + 1, n :: rest => do
    let v ← decodeNode inAlias fuel n
    let vs ← decodeItems inAlias fuel rest
    pure (v :: vs)

/-- Adds the entries of a mapping to `acc`, in order. The merge key itself is no value. -/
def decodeEntries (inAlias : Bool) : Nat → List (Value × Value) → List (Node × Node) →
    DecodeM (List (Value × Value))
  | _, acc, [] => pure acc
  | 0, acc, _ => pure acc
  | fuel + 1, acc, (k, v) :: rest => do
    let acc ← if k.isMerge then mergeInto inAlias fuel acc v
      else do
        let kv ← decodeNode inAlias fuel k
        match kv with
        | .seq _ | .map _ => throw (.composition ("invalid map key: " ++ kv.show))
        | _ => pure ()
        let vv ← decodeNode inAlias fuel v
        pure (setEntry acc kv vv)
    decodeEntries inAlias fuel acc rest

/-- Merges the value of a merge key into `acc`. A mapping counts as one value, an alias as one
value and then its mapping; a sequence is no value of its own. -/
def mergeInto (inAlias : Bool) : Nat → List (Value × Value) → Node →
    DecodeM (List (Value × Value))
  | 0, acc, _ => pure acc
  | fuel + 1, acc, .mapping entries => do
    countValue inAlias
    decodeEntries inAlias fuel acc entries
  | fuel + 1, acc, .alias name target =>
    match target with
    | some (.mapping entries) => do
      countValue inAlias
      countValue true
      decodeEntries true fuel acc entries
    | some _ => throw mergeError
    | none => do
      countValue inAlias
      throw (.composition ("anchor '" ++ name ++ "' value contains itself"))
  | fuel + 1, acc, .sequence items => mergeItems inAlias fuel acc items.reverse
  | _ + 1, _, .scalar .. => throw mergeError

/-- Merges the mappings of a sequence, last first. -/
def mergeItems (inAlias : Bool) : Nat → List (Value × Value) → List Node →
    DecodeM (List (Value × Value))
  | _, acc, [] => pure acc
  | 0, acc, _ => pure acc
  | fuel + 1, acc, n :: rest => do
    let acc ← match n with
      | .mapping _ | .alias _ (some (.mapping _)) | .alias _ none => mergeInto inAlias fuel acc n
      | _ => throw mergeError
    mergeItems inAlias fuel acc rest

end

/-- The value of the first document of a YAML text; null for an empty stream. The document and
its root count as the first two values made. -/
def readValue (text : String) : Except YamlError Value := do
  match ← composeDocument text with
  | none => pure .null
  | some n =>
    let ((), t) ← (countValue false).run ⟨0, 0⟩
    (decodeNode false (8 * (text.length + 8)) n).run' t

end FiniteElements.Yaml
