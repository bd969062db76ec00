import FiniteElements.Yaml.Token

/-!
# Scanning YAML text into tokens

The scanner reads characters and appends tokens to a queue, one construct at a time
(`fetchNextToken`). Block structure comes from indentation: a column deeper than the current
indentation opens a block collection (`rollIndent`), a shallower one closes collections with
block-end tokens (`unrollIndent`). A key without `?` is noticed only when its `:` arrives, so the
scanner remembers, per flow level, where a simple key could have started; the `:` then inserts
the key token (and possibly the block-mapping start) back at that place in the queue. A possible
key lasts one line and at most 1024 characters; a key that must be one (it starts a line at the
block indentation) and is not is an error.

Tokens are handed out only once no remembered key can still be inserted in front of them
(`fetchMoreTokens`), so errors are found in the order the reader meets them.

The reader decodes the text in runs of at most 512 octets, each ending at the last whole
character, and checks every character of a run when it decodes the run. A character YAML does not
allow is therefore an error as soon as the scanner looks at any character of its run, and never
if the scanner stops before that run (`readableLength`). The scanner looks one character past the
current position before it skips to a token and after, and four characters past the start of a
token before it scans the token.

## Main definitions

* `FiniteElements.Yaml.Scanner`, `FiniteElements.Yaml.ScanM`
* `FiniteElements.Yaml.fetchNextToken`, `FiniteElements.Yaml.fetchMoreTokens`
-/

namespace FiniteElements.Yaml

/-- Line breaks: carriage return, line feed, next line, line separator, paragraph separator. -/
def isBreak (c : Char) : Bool :=
  c == '\r' || c == '\n' || c.toNat == 0x85 || c.toNat == 0x2028 || c.toNat == 0x2029

/-- Blanks: space and tab. -/
def isBlank (c : Char) : Bool := c == ' ' || c == '\t'

/-- Characters of anchor names, tag handles and directive names: ASCII letters and digits, `_`
and `-`. -/
def isWordChar (c : Char) : Bool :=
  ('0' ≤ c && c ≤ '9') || ('A' ≤ c && c ≤ 'Z') || ('a' ≤ c && c ≤ 'z') || c == '_' || c == '-'

/-- Hexadecimal digits. -/
def isHexDigit (c : Char) : Bool :=
  ('0' ≤ c && c ≤ '9') || ('A' ≤ c && c ≤ 'F') || ('a' ≤ c && c ≤ 'f')

/-- The value of a hexadecimal digit. -/
def hexValue (c : Char) : Nat :=
  if c ≤ '9' then c.toNat - '0'.toNat
  else if c ≤ 'F' then c.toNat - 'A'.toNat + 10
  else c.toNat - 'a'.toNat + 10

/-- Characters allowed in a tag or a tag prefix. -/
def isUriChar (c : Char) : Bool :=
  isWordChar c || ";/?:@&=+$,.!~*'()[]%".contains c

/-- Whether the text ends here or goes on with a blank or a line break. -/
def blankOrEnd : List Char → Bool
  | [] => true
  | c :: _ => isBlank c || isBreak c

/-- Whether the text ends here or goes on with a line break. -/
def breakOrEnd : List Char → Bool
  | [] => true
  | c :: _ => isBreak c

/-- Whether the text goes on with a character of a class. -/
def startsWith (p : Char → Bool) : List Char → Bool
  | [] => false
  | c :: _ => p c

/-- Whether the text starts with three copies of `c` followed by a blank, a break or the end:
the markers `---` and `...`. -/
def tripleMarker (c : Char) : List Char → Bool
  | a :: b :: d :: rest => a == c && b == c && d == c && blankOrEnd rest
  | _ => false

/-- Whether the text starts with a document marker. -/
def documentMarker (cs : List Char) : Bool := tripleMarker '-' cs || tripleMarker '.' cs

/-- Where a simple key could have started on the current flow level. -/
structure SimpleKey where
  possible : Bool
  required : Bool
  tokenNumber : Nat
  mark : Mark
deriving Inhabited

/-- No possible key. -/
def SimpleKey.unset : SimpleKey := ⟨false, false, 0, ⟨0, 0, 0⟩⟩

/-- The state of the scanner. `queue` holds the tokens not yet taken, `parsed` counts those taken;
`indents` holds the enclosing indentations, the innermost last, and `keys` has one entry per flow
level, the innermost last. Every walk over the text takes at most `budget` steps (the length of
the text and a few more), and the reader hands out at most `limit` characters. -/
structure Scanner where
  rest : List Char
  mark : Mark
  queue : List Token
  parsed : Nat
  started : Bool
  indent : Int
  indents : Array Int
  keyAllowed : Bool
  keys : Array SimpleKey
  flowLevel : Nat
  budget : Nat
  limit : Nat
deriving Inhabited

/-- The most flow levels and indentation levels that may be open at once. -/
def maxDepth : Nat := 10000

/-- The characters allowed in YAML text: tab, line feed, carriage return, printable ASCII, next
line, and the rest of Unicode apart from the C1 controls, surrogates, `U+FFFE` and `U+FFFF`. -/
def isAllowedChar (c : Char) : Bool :=
  let n := c.toNat
  n == 9 || n == 10 || n == 13 || (0x20 ≤ n && n ≤ 0x7E) || n == 0x85 ||
    (0xA0 ≤ n && n ≤ 0xD7FF) || (0xE000 ≤ n && n ≤ 0xFFFD) || (0x10000 ≤ n && n ≤ 0x10FFFF)

/-- How many characters the reader hands out before it decodes the run holding the first
character that is not allowed; `none` when every character is allowed. A run starts where the
last one ended and takes the whole characters of the next 512 octets. `runStart` is the octet
offset where the current run starts, `offset` that of the next character, `before` the number of
characters of the earlier runs and `count` the number of characters read. -/
def readableLength : List Char → (runStart offset before count : Nat) → Option Nat
  | [], _, _, _, _ => none
  | c :: rest, runStart, offset, before, count =>
    let (runStart, before) :=
      if offset + c.utf8Size ≤ runStart + 512 then (runStart, before) else (offset, count)
    if isAllowedChar c then readableLength rest runStart (offset + c.utf8Size) before (count + 1)
    else some before

namespace Scanner

/-- A scanner at the start of a text. A byte order mark at the very start is not part of it. -/
def ofText (text : String) : Scanner :=
  let all := text.toList
  let (cs, mark) := match all with
    | c :: r => if c.toNat == 0xFEFF then (r, 1) else (c :: r, 0)
    | [] => ([], 0)
  let limit := match readableLength all 0 0 0 0 with
    | some n => n - mark
    | none => all.length + 16
  { rest := cs, mark := ⟨0, 0, 0⟩, queue := [], parsed := 0, started := false, indent := -1,
    indents := #[], keyAllowed := false, keys := #[], flowLevel := 0, budget := cs.length + 8,
    limit }

/-- Changes the possible keys; the array is changed in place when the scanner is not shared. -/
def withKeys (s : Scanner) (f : Array SimpleKey → Array SimpleKey) : Scanner :=
  let keys := s.keys
  let s := { s with keys := #[] }
  { s with keys := f keys }

/-- Replaces the possible key of the current flow level. -/
def setCurrentKey (s : Scanner) (k : SimpleKey) : Scanner :=
  s.withKeys fun keys => if keys.isEmpty then keys else keys.set! (keys.size - 1) k

/-- Moves over `n` characters that are not line breaks. -/
def advance (s : Scanner) (n : Nat) : Scanner :=
  { s with rest := s.rest.drop n, mark := ⟨s.mark.index + n, s.mark.line, s.mark.column + n⟩ }

/-- Moves over one line break (`CR LF` counts as one). -/
def skipLine (s : Scanner) : Scanner :=
  match s.rest with
  | '\r' :: '\n' :: r => { s with rest := r, mark := ⟨s.mark.index + 2, s.mark.line + 1, 0⟩ }
  | c :: r =>
    if isBreak c then { s with rest := r, mark := ⟨s.mark.index + 1, s.mark.line + 1, 0⟩ } else s
  | [] => s

/-- Moves over one line break and gives what it stands for in a scalar: a line feed for `CR LF`,
`CR`, `LF` and next line; the line and paragraph separators stand for themselves. -/
def readLine (s : Scanner) : Scanner × String :=
  match s.rest with
  | '\r' :: '\n' :: _ => (s.skipLine, "\n")
  | c :: _ =>
    if c == '\r' || c == '\n' || c.toNat == 0x85 then (s.skipLine, "\n")
    else if isBreak c then (s.skipLine, String.singleton c)
    else (s, "")
  | [] => (s, "")

/-- Appends a token to the queue. -/
def push (s : Scanner) (t : Token) : Scanner := { s with queue := s.queue ++ [t] }

/-- Closes block collections deeper than `column`, one block-end token each. -/
def unroll (column : Int) : Scanner → Nat → Scanner
  | s, 0 => s
  | s, fuel + 1 =>
    if s.indent > column then
      match s.indents.back? with
      | none => s
      | some i =>
        let indents := s.indents
        let s := { s with indents := #[] }
        unroll column { s.push ⟨.blockEnd, s.mark, s.mark⟩ with indent := i, indents := indents.pop }
          fuel
    else s

/-- Skips blanks, comments and line breaks up to the next token. Tabs count as blanks only in flow
collections and where no simple key may start; a line break in block context allows one. -/
def skipToToken : Scanner → Nat → Scanner
  | s, 0 => s
  | s, fuel + 1 =>
    let s := if s.mark.column == 0 && startsWith (·.toNat == 0xFEFF) s.rest then s.advance 1 else s
    let tabs := s.flowLevel > 0 || !s.keyAllowed
    let s := s.advance (s.rest.takeWhile fun c => c == ' ' || (tabs && c == '\t')).length
    let s := if s.rest.head? == some '#' then s.advance (s.rest.takeWhile (!isBreak ·)).length
      else s
    if startsWith isBreak s.rest then
      let s := s.skipLine
      skipToToken (if s.flowLevel == 0 then { s with keyAllowed := true } else s) fuel
    else s

end Scanner

/-- Scanning steps: they change the scanner or stop with an error. -/
abbrev ScanM := StateT Scanner (Except YamlError)

/-- Stops with the reader's error: the text holds a character that is not allowed. -/
def readerError {α : Type} : ScanM α :=
  throw (.malformed .reader ⟨0, 0, 0⟩ "control characters are not allowed" ⟨0, 0, 0⟩)

/-- Has the reader hand out the characters up to `n` past the current position. -/
def need (n : Nat) : ScanM Unit := do
  let s ← get
  if s.mark.index + n > s.limit then readerError

/-- Stops with a scanner error found at the current position. -/
def scanError {α : Type} (context : Mark) (problem : String) : ScanM α := do
  throw (.malformed .scanner context problem (← get).mark)

/-- Appends a token. -/
def emit (t : Token) : ScanM Unit := modify (·.push t)

/-- Appends a token for the next `n` characters, which hold no line break. -/
def punct (kind : TokenKind) (n : Nat) : ScanM Unit := modify fun s =>
  let s' := s.advance n
  s'.push ⟨kind, s.mark, s'.mark⟩

/-- Forgets the possible keys that can no longer be keys; such a key that was required is an
error. -/
def staleSimpleKeys : ScanM Unit := do
  let s ← get
  let line := s.mark.line
  let index := s.mark.index
  let stale (k : SimpleKey) : Bool :=
    k.possible && (k.mark.line < line || k.mark.index + 1024 < index)
  match s.keys.find? fun k => stale k && k.required with
  | some k => scanError k.mark "could not find expected ':'"
  | none =>
    if s.keys.any stale then
      modify fun s => s.withKeys fun keys =>
        keys.map fun k => if stale k then { k with possible := false } else k

/-- Forgets the possible key of the current flow level; a required one is an error. -/
def removeSimpleKey : ScanM Unit := do
  match (← get).keys.back? with
  | none => pure ()
  | some k =>
    if k.possible && k.required then scanError k.mark "could not find expected ':'"
    modify fun s => s.setCurrentKey { k with possible := false }

/-- Remembers that a simple key may start here, when one may. It is required when it starts at
the block indentation. -/
def saveSimpleKey : ScanM Unit := do
  let s ← get
  if s.keyAllowed then
    let key : SimpleKey :=
      ⟨true, s.flowLevel == 0 && s.indent == (s.mark.column : Int), s.parsed + s.queue.length,
        s.mark⟩
    removeSimpleKey
    modify fun s => s.setCurrentKey key

/-- Enters a flow collection. -/
def increaseFlowLevel : ScanM Unit := do
  modify fun s => { s.withKeys (·.push SimpleKey.unset) with flowLevel := s.flowLevel + 1 }
  if (← get).flowLevel > maxDepth then
    scanError SimpleKey.unset.mark s!"exceeded max depth of {maxDepth}"

/-- Leaves a flow collection. -/
def decreaseFlowLevel : ScanM Unit := modify fun s =>
  if s.flowLevel > 0 then { s.withKeys Array.pop with flowLevel := s.flowLevel - 1 } else s

/-- Opens a block collection at `column` if it is deeper than the current indentation: the start
token goes at the end of the queue, or before token number `number`. -/
def rollIndent (column : Nat) (number : Option Nat) (kind : TokenKind) (mark : Mark) :
    ScanM Unit := do
  let s ← get
  if s.flowLevel == 0 && s.indent < (column : Int) then
    let t : Token := ⟨kind, mark, mark⟩
    let queue := match number with
      | none => s.queue ++ [t]
      | some n => s.queue.take (n - s.parsed) ++ t :: s.queue.drop (n - s.parsed)
    let depth := s.indents.size + 1
    let context := (s.keys.back?.map (·.mark)).getD s.mark
    modify fun s =>
      let indents := s.indents
      let s := { s with indents := #[] }
      { s with queue, indents := indents.push s.indent, indent := column }
    if depth > maxDepth then scanError context s!"exceeded max depth of {maxDepth}"

/-- Closes block collections deeper than `column`; nothing happens inside flow collections. -/
def unrollIndent (column : Int) : ScanM Unit := modify fun s =>
  if s.flowLevel > 0 then s else s.unroll column s.indents.size

/-- The first token. -/
def fetchStreamStart : ScanM Unit := do
  modify fun s =>
    { s with indent := -1, keys := #[SimpleKey.unset], keyAllowed := true, started := true }
  let s ← get
  emit ⟨.streamStart, s.mark, s.mark⟩

/-- The last token, on a line of its own: open block collections are closed first. -/
def fetchStreamEnd : ScanM Unit := do
  modify fun s =>
    if s.mark.column != 0 then { s with mark := { s.mark with line := s.mark.line + 1, column := 0 } }
    else s
  unrollIndent (-1)
  removeSimpleKey
  modify fun s => { s with keyAllowed := false }
  let s ← get
  emit ⟨.streamEnd, s.mark, s.mark⟩

/-- `---` or `...`. -/
def fetchDocumentIndicator (kind : TokenKind) : ScanM Unit := do
  unrollIndent (-1)
  removeSimpleKey
  modify fun s => { s with keyAllowed := false }
  punct kind 3

/-- `[` or `{`. -/
def fetchFlowCollectionStart (kind : TokenKind) : ScanM Unit := do
  saveSimpleKey
  increaseFlowLevel
  modify fun s => { s with keyAllowed := true }
  punct kind 1

/-- `]` or `}`. -/
def fetchFlowCollectionEnd (kind : TokenKind) : ScanM Unit := do
  removeSimpleKey
  decreaseFlowLevel
  modify fun s => { s with keyAllowed := false }
  punct kind 1

/-- `,`. -/
def fetchFlowEntry : ScanM Unit := do
  removeSimpleKey
  modify fun s => { s with keyAllowed := true }
  punct .flowEntry 1

/-- `-` followed by a blank. -/
def fetchBlockEntry : ScanM Unit := do
  let s ← get
  if s.flowLevel == 0 then
    if !s.keyAllowed then
      scanError s.mark "block sequence entries are not allowed in this context"
    rollIndent s.mark.column none .blockSequenceStart s.mark
  removeSimpleKey
  modify fun s => { s with keyAllowed := true }
  punct .blockEntry 1

/-- `?`. -/
def fetchKey : ScanM Unit := do
  let s ← get
  if s.flowLevel == 0 then
    if !s.keyAllowed then
      scanError s.mark "mapping keys are not allowed in this context"
    rollIndent s.mark.column none .blockMappingStart s.mark
  removeSimpleKey
  modify fun s => { s with keyAllowed := s.flowLevel == 0 }
  punct .key 1

/-- `:`. After a possible simple key, the key token (and the start of a block mapping, if
needed) goes back to where that key started. -/
def fetchValue : ScanM Unit := do
  let s ← get
  match s.keys.back? with
  | some k =>
    if k.possible then
      let keyToken : Token := ⟨.key, k.mark, k.mark⟩
      let place := k.tokenNumber - s.parsed
      modify fun s => { s with queue := s.queue.take place ++ keyToken :: s.queue.drop place }
      rollIndent k.mark.column (some k.tokenNumber) .blockMappingStart k.mark
      modify fun s => { s.setCurrentKey { k with possible := false } with keyAllowed := false }
    else
      if s.flowLevel == 0 then
        if !s.keyAllowed then
          scanError s.mark "mapping values are not allowed in this context"
        rollIndent s.mark.column none .blockMappingStart s.mark
      modify fun s => { s with keyAllowed := s.flowLevel == 0 }
  | none => pure ()
  punct .value 1

/-- `*name` or `&name`. The name must be followed by a blank or one of `?:,]}%@` and a grave
accent. -/
def fetchAnchor (isAlias : Bool) : ScanM Unit := do
  saveSimpleKey
  modify fun s => { s with keyAllowed := false }
  let s ← get
  let start := s.mark
  let name := (s.rest.drop 1).takeWhile isWordChar
  let s' := s.advance (1 + name.length)
  set s'
  let ends := blankOrEnd s'.rest || startsWith ("?:,]\x7d%@\x60".contains ·) s'.rest
  if name.isEmpty || !ends then
    scanError start "did not find expected alphabetic or numeric character"
  let text := String.ofList name
  emit ⟨if isAlias then .alias text else .anchor text, start, s'.mark⟩

/-- Decodes the octets of one UTF-8 sequence. -/
def utf8Char (octets : List Nat) : Char :=
  match octets with
  | [a] => Char.ofNat a
  | [a, b] => Char.ofNat ((a % 32) * 64 + b % 64)
  | [a, b, c] => Char.ofNat ((a % 16) * 4096 + (b % 64) * 64 + c % 64)
  | [a, b, c, d] => Char.ofNat ((a % 8) * 262144 + (b % 64) * 4096 + (c % 64) * 64 + d % 64)
  | _ => Char.ofNat 0xFFFD

/-- The length of the UTF-8 sequence a leading octet starts, `0` for no leading octet. -/
def utf8Width (octet : Nat) : Nat :=
  if octet < 0x80 then 1
  else if octet / 32 == 6 then 2
  else if octet / 16 == 14 then 3
  else if octet / 8 == 30 then 4
  else 0

/-- The context of tag errors. -/
def tagContext (directive : Bool) : String :=
  if directive then "while parsing a %TAG directive" else "while parsing a tag"

/-- Reads `%XX` escapes forming one UTF-8 sequence. -/
def uriEscapes (start : Mark) : List Nat → Nat → Nat → ScanM Char
  | acc, _, 0 => pure (utf8Char acc.reverse)
  | acc, width, fuel + 1 => do
    let s ← get
    match s.rest with
    | '%' :: h :: l :: _ =>
      if isHexDigit h && isHexDigit l then
        let octet := hexValue h * 16 + hexValue l
        let width ← if acc.isEmpty then
            let w := utf8Width octet
            if w == 0 then scanError start "found an incorrect leading UTF-8 octet"
            pure w
          else
            if octet / 64 != 2 then scanError start "found an incorrect trailing UTF-8 octet"
            pure width
        set (s.advance 3)
        if acc.length + 1 == width then pure (utf8Char (octet :: acc).reverse)
        else uriEscapes start (octet :: acc) width fuel
      else scanError start "did not find URI escaped octet"
    | _ => scanError start "did not find URI escaped octet"

/-- Reads the characters of a tag or tag prefix, after `head` without its leading `!`. -/
def tagUri (directive : Bool) (head : String) (start : Mark) : Nat → String → Bool → ScanM String
  | 0, acc, _ => pure acc
  | fuel + 1, acc, seen => do
    let s ← get
    match s.rest with
    | c :: _ =>
      if isUriChar c then
        if c == '%' then
          let ch ← uriEscapes start [] 0 4
          tagUri directive head start fuel (acc.push ch) true
        else
          set (s.advance 1)
          tagUri directive head start fuel (acc.push c) true
      else if seen || !head.isEmpty then pure acc
      else scanError start "did not find expected tag URI"
    | [] =>
      if seen || !head.isEmpty then pure acc
      else scanError start "did not find expected tag URI"

/-- Reads a tag URI, starting with `head` without its leading `!`. -/
def scanTagUri (directive : Bool) (head : String) (start : Mark) : ScanM String := do
  let s ← get
  let acc := String.ofList (head.toList.drop 1)
  tagUri directive head start s.budget acc false

/-- Reads a tag handle: `!`, word characters and, for a handle proper, a closing `!`. -/
def scanTagHandle (directive : Bool) (start : Mark) : ScanM String := do
  let s ← get
  if s.rest.head? != some '!' then scanError start "did not find expected '!'"
  let word := (s.rest.drop 1).takeWhile isWordChar
  let s' := s.advance (1 + word.length)
  set s'
  let handle := "!" ++ String.ofList word
  if s'.rest.head? == some '!' then
    set (s'.advance 1)
    pure (handle.push '!')
  else
    if directive && handle != "!" then scanError start "did not find expected '!'"
    pure handle

/-- `!<uri>`, `!suffix`, `!handle!suffix` or `!`. -/
def fetchTag : ScanM Unit := do
  saveSimpleKey
  modify fun s => { s with keyAllowed := false }
  let s ← get
  let start := s.mark
  let (handle, suffix) ← match s.rest with
    | '!' :: '<' :: _ => do
      set (s.advance 2)
      let suffix ← scanTagUri false "" start
      if (← get).rest.head? != some '>' then scanError start "did not find the expected '>'"
      modify (·.advance 1)
      pure ("", suffix)
    | _ => do
      let handle ← scanTagHandle false start
      if handle.length > 1 && handle.startsWith "!" && handle.endsWith "!" then
        let suffix ← scanTagUri false "" start
        pure (handle, suffix)
      else
        let suffix ← scanTagUri false handle start
        if suffix.isEmpty then pure ("", "!") else pure ("!", suffix)
  let s ← get
  if !blankOrEnd s.rest && !(s.flowLevel > 0 && s.rest.head? == some ',') then
    scanError start "did not find expected whitespace or line break"
  emit ⟨.tag handle suffix, start, s.mark⟩

/-- Skips blanks and a comment up to a line break or the end. -/
def skipTrailer : ScanM Unit := modify fun s =>
  let s := s.advance (s.rest.takeWhile isBlank).length
  if s.rest.head? == some '#' then s.advance (s.rest.takeWhile (!isBreak ·)).length else s

/-- A version number of at most two digits. -/
def versionNumber (start : Mark) : ScanM Nat := do
  let s ← get
  let ds := s.rest.takeWhile Char.isDigit
  if ds.length > 2 then
    set (s.advance 2)
    scanError start "found extremely long version number"
  if ds.isEmpty then scanError start "did not find expected version number"
  set (s.advance ds.length)
  pure (ds.foldl (fun n c => 10 * n + (c.toNat - '0'.toNat)) 0)

/-- `%YAML` and `%TAG` lines. -/
def fetchDirective : ScanM Unit := do
  unrollIndent (-1)
  removeSimpleKey
  modify fun s => { s with keyAllowed := false }
  let s ← get
  let start := s.mark
  let name := (s.rest.drop 1).takeWhile isWordChar
  set (s.advance (1 + name.length))
  if name.isEmpty then scanError start "could not find expected directive name"
  if !blankOrEnd (← get).rest then
    scanError start "found unexpected non-alphabetical character"
  let kind ← match String.ofList name with
    | "YAML" => do
      modify fun s => s.advance (s.rest.takeWhile isBlank).length
      let major ← versionNumber start
      if (← get).rest.head? != some '.' then
        scanError start "did not find expected digit or '.' character"
      modify (·.advance 1)
      let minor ← versionNumber start
      pure (TokenKind.versionDirective major minor)
    | "TAG" => do
      modify fun s => s.advance (s.rest.takeWhile isBlank).length
      let handle ← scanTagHandle true start
      if !startsWith isBlank (← get).rest then scanError start "did not find expected whitespace"
      modify fun s => s.advance (s.rest.takeWhile isBlank).length
      let tagPrefix ← scanTagUri true "" start
      if !blankOrEnd (← get).rest then
        scanError start "did not find expected whitespace or line break"
      pure (TokenKind.tagDirective handle tagPrefix)
    | _ => scanError start "found unknown directive name"
  let stop := (← get).mark
  skipTrailer
  if !breakOrEnd (← get).rest then
    scanError start "did not find expected comment or line break"
  modify (·.skipLine)
  emit ⟨kind, start, stop⟩

/-- The text of a scalar being read, with the blanks and line breaks not yet joined to it. -/
structure Folding where
  text : String
  leadingBreak : String
  trailingBreaks : String
  whitespaces : String
  leadingBlanks : Bool

/-- Nothing read yet. -/
def Folding.empty : Folding := ⟨"", "", "", "", false⟩

/-- Joins the pending blanks or breaks to the text: after a line feed, one line break becomes a
space and more become the breaks after the first; other breaks are kept; blanks within a line
are kept. -/
def Folding.join (f : Folding) : Folding :=
  if f.leadingBlanks then
    let text :=
      if f.leadingBreak.toList.head? == some '\n' then
        if f.trailingBreaks.isEmpty then f.text.push ' ' else f.text ++ f.trailingBreaks
      else f.text ++ f.leadingBreak ++ f.trailingBreaks
    { f with text, leadingBreak := "", trailingBreaks := "", leadingBlanks := false }
  else { f with text := f.text ++ f.whitespaces, whitespaces := "" }

/-- Reads blanks and line breaks between the pieces of a scalar. In a plain scalar (`tabLimit`
set) a tab left of the scalar's indentation after a line break is an error. -/
def foldBlanks (tabLimit : Option (Mark × Int)) : Scanner → Folding → Nat →
    Except YamlError (Scanner × Folding)
  | s, f, 0 => .ok (s, f)
  | s, f, fuel + 1 =>
    match s.rest with
    | c :: _ =>
      if isBlank c then
        match tabLimit with
        | some (start, indent) =>
          if f.leadingBlanks && (s.mark.column : Int) < indent && c == '\t' then
            .error (.malformed .scanner start "found a tab character that violates indentation" s.mark)
          else if f.leadingBlanks then foldBlanks tabLimit (s.advance 1) f fuel
          else foldBlanks tabLimit (s.advance 1) { f with whitespaces := f.whitespaces.push c } fuel
        | none =>
          if f.leadingBlanks then foldBlanks tabLimit (s.advance 1) f fuel
          else foldBlanks tabLimit (s.advance 1) { f with whitespaces := f.whitespaces.push c } fuel
      else if isBreak c then
        let (s', br) := s.readLine
        if f.leadingBlanks then foldBlanks tabLimit s' { f with trailingBreaks := f.trailingBreaks ++ br } fuel
        else foldBlanks tabLimit s' { f with whitespaces := "", leadingBreak := br, leadingBlanks := true } fuel
      else .ok (s, f)
    | [] => .ok (s, f)

/-- Reads the characters of a plain scalar up to a blank, a break, `: ` or (in flow collections)
one of `,?[]{}`, joining what was pending first. Gives the position after the last character. -/
def plainRun (flow : Bool) : Scanner → Folding → Mark → Nat → Scanner × Folding × Mark
  | s, f, e, 0 => (s, f, e)
  | s, f, e, fuel + 1 =>
    match s.rest with
    | [] => (s, f, e)
    | c :: more =>
      if isBlank c || isBreak c then (s, f, e)
      else if (c == ':' && blankOrEnd more) || (flow && ",?[]\x7b\x7d".contains c) then (s, f, e)
      else
        let f := f.join
        let s := s.advance 1
        plainRun flow s { f with text := f.text.push c } s.mark fuel

/-- Reads a plain scalar line by line; it ends at a document marker, a comment, an indicator, or a
line indented no deeper than the enclosing block. -/
def plainLines (start : Mark) (indent : Int) : Scanner → Folding → Mark → Nat →
    Except YamlError (Scanner × Folding × Mark)
  | s, f, e, 0 => .ok (s, f, e)
  | s, f, e, fuel + 1 =>
    if s.mark.column == 0 && documentMarker s.rest then .ok (s, f, e)
    else if s.rest.head? == some '#' then .ok (s, f, e)
    else
      let (s, f, e) := plainRun (s.flowLevel > 0) s f e s.budget
      if !startsWith (fun c => isBlank c || isBreak c) s.rest then .ok (s, f, e)
      else do
        let (s, f) ← foldBlanks (some (start, indent)) s f s.budget
        if s.flowLevel == 0 && (s.mark.column : Int) < indent then .ok (s, f, e)
        else plainLines start indent s f e fuel

/-- A plain scalar. A line break inside it allows a simple key after it. -/
def fetchPlainScalar : ScanM Unit := do
  saveSimpleKey
  modify fun s => { s with keyAllowed := false }
  let s ← get
  let start := s.mark
  let (s', f, e) ← plainLines start (s.indent + 1) s Folding.empty start s.budget
  set ((s'.push ⟨.scalar f.text .plain, start, e⟩) |> fun s =>
    if f.leadingBlanks then { s with keyAllowed := true } else s)

/-- The character a one-letter escape stands for. -/
def simpleEscape : Char → Option Char
  | '0' => some (Char.ofNat 0)
  | 'a' => some (Char.ofNat 7)
  | 'b' => some (Char.ofNat 8)
  | 't' => some '\t'
  | '\t' => some '\t'
  | 'n' => some '\n'
  | 'v' => some (Char.ofNat 11)
  | 'f' => some (Char.ofNat 12)
  | 'r' => some '\r'
  | 'e' => some (Char.ofNat 27)
  | ' ' => some ' '
  | '"' => some '"'
  | '\'' => some '\''
  | '\\' => some '\\'
  | 'N' => some (Char.ofNat 0x85)
  | '_' => some (Char.ofNat 0xA0)
  | 'L' => some (Char.ofNat 0x2028)
  | 'P' => some (Char.ofNat 0x2029)
  | _ => none

/-- The number of hexadecimal digits after `\x`, `\u` and `\U`. -/
def codeLength : Char → Nat
  | 'x' => 2
  | 'u' => 4
  | 'U' => 8
  | _ => 0

/-- Reads the characters of a quoted scalar up to a blank, a break or the closing quote. The flag
says that an escaped line break ended the run. -/
def quotedRun (single : Bool) (start : Mark) : Scanner → String → Nat →
    Except YamlError (Scanner × String × Bool)
  | s, t, 0 => .ok (s, t, false)
  | s, t, fuel + 1 =>
    let err (s : Scanner) (problem : String) : Except YamlError (Scanner × String × Bool) :=
      .error (.malformed .scanner start problem s.mark)
    match s.rest with
    | [] => .ok (s, t, false)
    | c :: more =>
      if isBlank c || isBreak c then .ok (s, t, false)
      else if single && c == '\'' && more.head? == some '\'' then
        quotedRun single start (s.advance 2) (t.push '\'') fuel
      else if single && c == '\'' then .ok (s, t, false)
      else if !single && c == '"' then .ok (s, t, false)
      else if !single && c == '\\' && startsWith isBreak more then
        .ok ((s.advance 1).skipLine, t, true)
      else if !single && c == '\\' then
        match more with
        | e :: digits =>
          match simpleEscape e with
          | some ch => quotedRun single start (s.advance 2) (t.push ch) fuel
          | none =>
            let n := codeLength e
            if n == 0 then err s "found unknown escape character"
            else
              let s2 := s.advance 2
              let ds := digits.take n
              if ds.length < n || !ds.all isHexDigit then
                err s2 "did not find expected hexdecimal number"
              else
                let v := ds.foldl (fun a d => 16 * a + hexValue d) 0
                if (0xD800 ≤ v && v ≤ 0xDFFF) || v > 0x10FFFF then
                  err s2 "found invalid Unicode character escape code"
                else quotedRun single start (s2.advance n) (t.push (Char.ofNat v)) fuel
        | [] => err s "found unknown escape character"
      else quotedRun single start (s.advance 1) (t.push c) fuel

/-- Reads a quoted scalar after its opening quote, piece by piece. -/
def quotedLines (single : Bool) (start : Mark) : Scanner → Folding → Nat →
    Except YamlError (Scanner × Folding)
  | s, f, 0 => .ok (s, f)
  | s, f, fuel + 1 =>
    if s.mark.column == 0 && documentMarker s.rest then
      .error (.malformed .scanner start "found unexpected document indicator" s.mark)
    else if s.rest.isEmpty then
      .error (.malformed .scanner start "found unexpected end of stream" s.mark)
    else do
      let (s, text, escapedBreak) ← quotedRun single start s f.text s.budget
      let f := { f with text, leadingBlanks := escapedBreak }
      if s.rest.head? == some (if single then '\'' else '"') then .ok (s, f)
      else
        let (s, f) ← foldBlanks none s f s.budget
        quotedLines single start s f.join fuel

/-- A single-quoted or double-quoted scalar. -/
def fetchFlowScalar (single : Bool) : ScanM Unit := do
  saveSimpleKey
  modify fun s => { s with keyAllowed := false }
  let s ← get
  let start := s.mark
  let (s', f) ← quotedLines single start (s.advance 1) Folding.empty s.budget
  let s'' := s'.advance 1
  set (s''.push ⟨.scalar f.text (if single then .singleQuoted else .doubleQuoted), start, s''.mark⟩)

/-- Reads the indentation and empty lines before a line of a block scalar. With `indent = 0` the
indentation is not known yet and becomes the deepest seen (at least one more than the block
indentation, and at least one). -/
def blockBreaks (start : Mark) (outer : Int) : Scanner → Nat → String → Mark → Nat → Nat →
    Except YamlError (Scanner × Nat × String × Mark)
  | s, indent, breaks, e, _, 0 => .ok (s, indent, breaks, e)
  | s, indent, breaks, e, deepest, fuel + 1 =>
    let free (s : Scanner) : Bool := indent == 0 || s.mark.column < indent
    let spaces := (s.rest.takeWhile (· == ' ')).length
    let take := if indent == 0 then spaces else min spaces (indent - s.mark.column)
    let s := s.advance take
    let deepest := max deepest s.mark.column
    if free s && s.rest.head? == some '\t' then
      .error (.malformed .scanner start
        "found a tab character where an indentation space is expected" s.mark)
    else if !startsWith isBreak s.rest then
      let indent :=
        if indent == 0 then max (max deepest (outer + 1).toNat) 1 else indent
      .ok (s, indent, breaks, e)
    else
      let (s, br) := s.readLine
      blockBreaks start outer s indent (breaks ++ br) s.mark deepest fuel

/-- The lines of a block scalar at its indentation, folded (`>`) or kept (`|`). -/
def blockLines (literal : Bool) (start : Mark) (outer : Int) (indent : Nat) :
    Scanner → String → String → String → Bool → Mark → Nat →
    Except YamlError (Scanner × String × String × String × Mark)
  | s, t, leading, trailing, _, e, 0 => .ok (s, t, leading, trailing, e)
  | s, t, leading, trailing, leadingBlank, e, fuel + 1 =>
    if s.mark.column != indent || s.rest.isEmpty then .ok (s, t, leading, trailing, e)
    else
      let trailingBlank := startsWith isBlank s.rest
      let t :=
        if !literal && !leadingBlank && !trailingBlank && leading.toList.head? == some '\n' then
          if trailing.isEmpty then t.push ' ' else t
        else t ++ leading
      let t := t ++ trailing
      let leadingBlank := startsWith isBlank s.rest
      let line := s.rest.takeWhile (!isBreak ·)
      let s := s.advance line.length
      let t := t ++ String.ofList line
      let (s, leading) := s.readLine
      match blockBreaks start outer s indent "" s.mark 0 s.budget with
      | .error err => .error err
      | .ok (s, _, trailing, e) =>
        blockLines literal start outer indent s t leading trailing leadingBlank e fuel

/-- A literal (`|`) or folded (`>`) block scalar with its chomping and indentation indicators. -/
def fetchBlockScalar (literal : Bool) : ScanM Unit := do
  removeSimpleKey
  modify fun s => { s with keyAllowed := true }
  let s ← get
  let start := s.mark
  set (s.advance 1)
  let chompOf (c : Char) : Int := if c == '+' then 1 else -1
  let digitOf (c : Char) : Nat := c.toNat - '0'.toNat
  let (chomping, increment) ← match (← get).rest with
    | c :: more =>
      if c == '+' || c == '-' then do
        modify (·.advance 1)
        match more with
        | d :: _ =>
          if d.isDigit then
            if d == '0' then scanError start "found an indentation indicator equal to 0"
            modify (·.advance 1)
            pure (chompOf c, digitOf d)
          else pure (chompOf c, 0)
        | [] => pure (chompOf c, 0)
      else if c.isDigit then do
        if c == '0' then scanError start "found an indentation indicator equal to 0"
        modify (·.advance 1)
        match more with
        | d :: _ =>
          if d == '+' || d == '-' then
            modify (·.advance 1)
            pure (chompOf d, digitOf c)
          else pure (0, digitOf c)
        | [] => pure (0, digitOf c)
      else pure (0, 0)
    | [] => pure (0, 0)
  skipTrailer
  if !breakOrEnd (← get).rest then
    scanError start "did not find expected comment or line break"
  modify (·.skipLine)
  let s ← get
  let outer := s.indent
  let indent : Nat :=
    if increment > 0 then (if outer ≥ 0 then (outer + increment).toNat else increment) else 0
  let (s, indent, trailing, e) ← blockBreaks start outer s indent "" s.mark 0 s.budget
  let (s, t, leading, trailing, e) ←
    blockLines literal start outer indent s "" "" trailing false e s.budget
  let t := if chomping != -1 then t ++ leading else t
  let t := if chomping == 1 then t ++ trailing else t
  set (s.push ⟨.scalar t (if literal then .literal else .folded), start, e⟩)

/-- Whether a plain scalar may start here: a character that is not blank and no indicator, or
`-`, `?` or `:` followed by a character that is not blank (for `?` and `:` only outside flow
collections). -/
def plainStart (flow : Bool) : List Char → Bool
  | [] => false
  | c :: more =>
    !(blankOrEnd (c :: more) || "-?:,[]\x7b\x7d#&*!|>'\"%@\x60".contains c) ||
      (c == '-' && !startsWith isBlank more) ||
      (!flow && (c == '?' || c == ':') && !blankOrEnd more)

/-- Scans the token that starts at the current position, which is the start of a token. -/
def fetchToken : ScanM Unit := do
  let s ← get
  let flow := s.flowLevel > 0
  let col0 := s.mark.column == 0
  match s.rest with
  | [] => fetchStreamEnd
  | c :: more =>
    if col0 && c == '%' then fetchDirective
    else if col0 && tripleMarker '-' s.rest then fetchDocumentIndicator .documentStart
    else if col0 && tripleMarker '.' s.rest then fetchDocumentIndicator .documentEnd
    else if c == '[' then fetchFlowCollectionStart .flowSequenceStart
    else if c == '{' then fetchFlowCollectionStart .flowMappingStart
    else if c == ']' then fetchFlowCollectionEnd .flowSequenceEnd
    else if c == '}' then fetchFlowCollectionEnd .flowMappingEnd
    else if c == ',' then fetchFlowEntry
    else if c == '-' && blankOrEnd more then fetchBlockEntry
    else if c == '?' && (flow || blankOrEnd more) then fetchKey
    else if c == ':' && (flow || blankOrEnd more) then fetchValue
    else if c == '*' then fetchAnchor true
    else if c == '&' then fetchAnchor false
    else if c == '!' then fetchTag
    else if c == '|' && !flow then fetchBlockScalar true
    else if c == '>' && !flow then fetchBlockScalar false
    else if c == '\'' then fetchFlowScalar true
    else if c == '"' then fetchFlowScalar false
    else if plainStart flow s.rest then fetchPlainScalar
    else scanError s.mark "found character that cannot start any token"

/-- Scans the next construct and appends its tokens. -/
def fetchNextToken : ScanM Unit := do
  need 1
  if !(← get).started then fetchStreamStart
  else
    modify fun s => s.skipToToken s.budget
    need 1
    staleSimpleKeys
    unrollIndent (← get).mark.column
    need 4
    let limit := (← get).limit
    tryCatch fetchToken fun e =>
      match e with
      | .malformed .scanner _ _ mark => if mark.index + 1 > limit then readerError else throw e
      | _ => throw e

/-- Whether the scanner must read on before it hands out the head of its queue: the queue is
empty, or a possible simple key could still put a token in front of the head. -/
def needMoreTokens : ScanM Bool := do
  if (← get).queue.isEmpty then return true
  staleSimpleKeys
  let s ← get
  return s.keys.any fun k => k.possible && k.tokenNumber == s.parsed

/-- Reads on until the head of the queue can be handed out. -/
def fetchMoreTokens : Nat → ScanM Unit
  | 0 => pure ()
  | fuel + 1 => do
    if ← needMoreTokens then
      fetchNextToken
      fetchMoreTokens fuel

end FiniteElements.Yaml
