import FiniteElements.Text.Quoted
import FiniteElements.Text.Columns

/-!
# Command-line flags

A flag has a long name, perhaps a one-letter short name, and takes text, a whole number or a
switch. `parseFlags` reads the arguments of a command:

* `--name=value`, `--name value`, and a bare `--name` for a switch (which sets it);
* `-n value`, `-nvalue`, `-n=value`, and short switches run together (`-vf`); the letters after a
  short flag that takes a value are its value;
* `--` ends the flags, `-` alone is an argument, and every other argument that does not start
  with `-` is kept in order as a positional argument. An argument `-test.…` is skipped.

Whole numbers are read with a base prefix (`0x`, `0o`, `0b`, or a leading `0` for octal) and
underscores between digits, within the signed 64-bit range; switches take `1`, `t`, `T`, `true`,
`TRUE`, `True` and the matching words for false.

`stripFlags` is the lighter reading used to find a subcommand: it drops flags and their values
without checking them, assuming that a flag it does not know takes a value.

## Main definitions

* `FiniteElements.Command.Flag`, `FiniteElements.Command.FlagValue`
* `FiniteElements.Command.parseFlags`, `FiniteElements.Command.stripFlags`
* `FiniteElements.Command.flagUsages`
-/

namespace FiniteElements.Command

open Text

/-- What a flag takes. -/
inductive FlagKind where
  | text
  | whole
  | switch
deriving Repr, BEq, Inhabited

/-- A command-line flag with its default (as help text shows it) and its help line. -/
structure Flag where
  name : String
  short : Option Char
  kind : FlagKind
  defaultText : String
  usage : String
deriving Repr, Inhabited

/-- The value a flag was given. -/
inductive FlagValue where
  | text (s : String)
  | whole (n : Int)
  | switch (b : Bool)
deriving Repr, Inhabited

/-- The flags that were given, latest last. -/
abbrev Settings := List (String × FlagValue)

/-- The name of a flag in messages: `-D, --dim`, or `--dense` without a short name. -/
def Flag.label (f : Flag) : String :=
  match f.short with
  | some c => "-" ++ c.toString ++ ", --" ++ f.name
  | none => "--" ++ f.name

/-- A character between single quotes, escaped as in quoted text. -/
def quoteChar (c : Char) : String :=
  if c == '\'' then "'\\''" else if c == '"' then "'\"'"
  else String.ofList ('\'' :: escapeChar c ++ ['\''])

/-- Whether the underscores of a number (sign and base prefix included) stand only between
digits. -/
def underscoresFit (s : String) : Bool :=
  let cs := match s.toList with
    | c :: rest => if c == '+' || c == '-' then rest else c :: rest
    | [] => []
  let (hex, body, start) := match cs with
    | '0' :: p :: rest =>
      let l := p.toLower
      if l == 'b' || l == 'o' || l == 'x' then (l == 'x', rest, '0') else (false, cs, '^')
    | _ => (false, cs, '^')
  let isDigit (c : Char) : Bool := c.isDigit || (hex && 'a' ≤ c.toLower && c.toLower ≤ 'f')
  let last := body.foldl (fun (saw : Option Char) c =>
    match saw with
    | none => none
    | some s =>
      if isDigit c then some '0'
      else if c == '_' then (if s == '0' then some '_' else none)
      else if s == '_' then none
      else some '!') (some start)
  match last with
  | some s => s != '_'
  | none => false

/-- Why a number cannot be read. -/
inductive NumberProblem where
  | malformed
  | range
deriving Repr, BEq, Inhabited

/-- The value of a digit character in bases up to 36. -/
def digitOf (c : Char) : Option Nat :=
  if c.isDigit then some (c.toNat - '0'.toNat)
  else
    let l := c.toLower
    if 'a' ≤ l && l ≤ 'z' then some (l.toNat - 'a'.toNat + 10) else none

/-- Reads an unsigned 64-bit number with a base prefix and underscores; overflow is found as
soon as the digits read exceed the range. -/
def readUnsigned (s : String) : Except NumberProblem Nat :=
  let cs := s.toList
  if cs.isEmpty then .error .malformed
  else
    let (base, digits) := match cs with
      | '0' :: p :: rest =>
        let l := p.toLower
        if !rest.isEmpty && l == 'b' then (2, rest)
        else if !rest.isEmpty && l == 'o' then (8, rest)
        else if !rest.isEmpty && l == 'x' then (16, rest)
        else (8, p :: rest)
      | '0' :: [] => (8, [])
      | _ => (10, cs)
    let step (acc : Except NumberProblem (Nat × Bool)) (c : Char) : Except NumberProblem (Nat × Bool) :=
      acc.bind fun (n, underscores) =>
        if c == '_' then .ok (n, true)
        else match digitOf c with
          | none => .error .malformed
          | some d =>
            if d ≥ base then .error .malformed
            else
              let n' := n * base + d
              if n' ≥ Nat.pow 2 64 then .error .range else .ok (n', underscores)
    match digits.foldl step (.ok (0, false)) with
    | .error p => .error p
    | .ok (n, underscores) => if underscores && !underscoresFit s then .error .malformed else .ok n

/-- Reads a signed 64-bit number with a base prefix, as the whole-number flags do; the error
text names the number. -/
def readWhole (s : String) : Except String Int :=
  let fail (p : NumberProblem) : Except String Int :=
    .error ("strconv.ParseInt: parsing " ++ quote s ++ ": " ++
      (if p == .range then "value out of range" else "invalid syntax"))
  let (negative, body) := match s.toList with
    | '-' :: rest => (true, String.ofList rest)
    | '+' :: rest => (false, String.ofList rest)
    | _ => (false, s)
  if s.isEmpty then fail .malformed
  else match readUnsigned body with
    | .error .malformed => fail .malformed
    | .error .range => fail .range
    | .ok n =>
      if negative then (if n ≤ Nat.pow 2 63 then .ok (-(n : Int)) else fail .range)
      else if n < Nat.pow 2 63 then .ok n else fail .range

/-- Reads a switch value. -/
def readSwitch (s : String) : Except String Bool :=
  if ["1", "t", "T", "true", "TRUE", "True"].contains s then .ok true
  else if ["0", "f", "F", "false", "FALSE", "False"].contains s then .ok false
  else .error ("strconv.ParseBool: parsing " ++ quote s ++ ": invalid syntax")

/-- The value of a flag from its text. -/
def Flag.read (f : Flag) (value : String) : Except String FlagValue :=
  let wrap {α : Type} (x : Except String α) (k : α → FlagValue) : Except String FlagValue :=
    match x with
    | .ok v => .ok (k v)
    | .error why =>
      .error ("invalid argument " ++ quote value ++ " for " ++ quote f.label ++ " flag: " ++ why)
  match f.kind with
  | .text => .ok (.text value)
  | .whole => wrap (readWhole value) .whole
  | .switch => wrap (readSwitch value) .switch

/-- The flag of a long name. -/
def findLong (flags : List Flag) (name : String) : Option Flag := flags.find? (·.name == name)

/-- The flag of a short name. -/
def findShort (flags : List Flag) (c : Char) : Option Flag := flags.find? (·.short == some c)

/-- The state of reading arguments: the settings so far and the positional arguments. -/
structure Reading where
  settings : Settings
  positional : List String
deriving Inhabited

/-- Records the value of a flag. -/
def Reading.set (r : Reading) (f : Flag) (v : FlagValue) : Reading :=
  { r with settings := r.settings ++ [(f.name, v)] }

/-- Reads a run of short flags (the text after `-`), with `rest` the arguments after it; gives the
arguments still to read. -/
def readShorts (flags : List Flag) (rest : List String) : Reading → List Char →
    Except String (Reading × List String)
  | r, [] => .ok (r, rest)
  | r, shorts@(c :: more) =>
    if (String.ofList shorts).startsWith "test." then .ok (r, rest)
    else
      match findShort flags c with
      | none =>
        let shown := if c.toNat < 0x80 then c
          else Char.ofNat ((String.singleton c).toUTF8.toList.headD 0).toNat
        .error ("unknown shorthand flag: " ++ quoteChar shown ++ " in -" ++ String.ofList shorts)
      | some f =>
        match more with
        | '=' :: value@(_ :: _) => do
          let v ← f.read (String.ofList value)
          pure (r.set f v, rest)
        | _ =>
          if f.kind == .switch then do
            let v ← f.read "true"
            readShorts flags rest (r.set f v) more
          else if !more.isEmpty then do
            let v ← f.read (String.ofList more)
            pure (r.set f v, rest)
          else match rest with
            | value :: after => do
              let v ← f.read value
              pure (r.set f v, after)
            | [] =>
              .error ("flag needs an argument: " ++ quoteChar c ++ " in -" ++ String.ofList shorts)

/-- Reads the flags and positional arguments of a command. -/
def parseFlags (flags : List Flag) (args : List String) : Except String Reading :=
  go args.length ⟨[], []⟩ args
where
  /-- Reads arguments one by one; `fuel` is at least the number left. -/
  go : Nat → Reading → List String → Except String Reading
    | _, r, [] => .ok r
    | 0, r, _ => .ok r
    | fuel + 1, r, s :: rest =>
      let cs := s.toList
      match cs with
      | '-' :: '-' :: [] => .ok { r with positional := r.positional ++ rest }
      | '-' :: '-' :: name =>
        if name.head? == some '-' || name.head? == some '=' then .error ("bad flag syntax: " ++ s)
        else
          let key := String.ofList (name.takeWhile (· != '='))
          let given : Option String :=
            if name.contains '=' then some (String.ofList ((name.dropWhile (· != '=')).drop 1))
            else none
          match findLong flags key with
          | none => .error ("unknown flag: --" ++ key)
          | some f =>
            let next : Except String (String × List String) :=
              match given with
              | some v => .ok (v, rest)
              | none =>
                if f.kind == .switch then .ok ("true", rest)
                else match rest with
                  | v :: after => .ok (v, after)
                  | [] => .error ("flag needs an argument: " ++ s)
            match next with
            | .error e => .error e
            | .ok (value, after) =>
              match f.read value with
              | .error e => .error e
              | .ok v => go fuel (r.set f v) after
      | '-' :: shorts@(_ :: _) =>
        match readShorts flags rest r shorts with
        | .error e => .error e
        | .ok (r, after) => go fuel r after
      | _ => go fuel { r with positional := r.positional ++ [s] } rest

/-- Whether a flag name (long or short) is a switch, which takes no separate value. -/
def isSwitchNamed (flags : List Flag) (long : Bool) (name : String) : Bool :=
  let f := if long then findLong flags name else (name.toList.head?).bind (findShort flags)
  match f with
  | some f => f.kind == .switch
  | none => false

/-- The arguments that are not flags or flag values, as far as they can be told apart without
reading the flags: an unknown flag is taken to have a value, and a flag that would take the last
argument as its value ends the reading. -/
def stripFlags (flags : List Flag) (args : List String) : List String :=
  go args.length args
where
  /-- Drops flags one by one; `fuel` is at least the number of arguments left. -/
  go : Nat → List String → List String
    | _, [] => []
    | 0, _ => []
    | fuel + 1, s :: rest =>
      let takesNext :=
        (s.startsWith "--" && !s.contains '=' && !isSwitchNamed flags true (s.drop 2).toString) ||
          (s.startsWith "-" && !s.contains '=' && s.utf8ByteSize == 2 &&
            !isSwitchNamed flags false (s.drop 1).toString)
      if s == "--" then []
      else if takesNext then
        match rest with
        | _ :: next@(_ :: _) => go fuel next
        | _ => []
      else if s != "" && !s.startsWith "-" then s :: go fuel rest
      else go fuel rest

/-- The help lines of flags, sorted by name, their help texts aligned; a help text of several
lines is indented under the first. -/
def flagUsages (flags : List Flag) : String :=
  let sorted := flags.mergeSort fun a b => decide (a.name ≤ b.name)
  let heads := sorted.map fun f =>
    let lead := match f.short with
      | some c => "  -" ++ c.toString ++ ", --" ++ f.name
      | none => "      --" ++ f.name
    let typeName := match f.kind with
      | .text => " string"
      | .whole => " int"
      | .switch => ""
    lead ++ typeName
  let width := heads.foldl (fun m h => max m (h.length + 1)) 0
  let lines := (sorted.zip heads).map fun (f, head) =>
    let isZero := match f.kind with
      | .text => f.defaultText.isEmpty
      | .whole => f.defaultText == "0"
      | .switch => f.defaultText == "false"
    let dflt := if isZero then ""
      else if f.kind == .text then " (default " ++ quote f.defaultText ++ ")"
      else " (default " ++ f.defaultText ++ ")"
    let usage := (f.usage ++ dflt).replace "\n" ("\n" ++ spaces (width + 2))
    head ++ " " ++ spaces (width - head.length) ++ " " ++ usage ++ "\n"
  String.join lines

end FiniteElements.Command
