import FiniteElements.Yaml.Scanner

/-!
# Parsing YAML tokens into events

The parser is a state machine over the token stream of the scanner. Each call of `nextEvent`
gives one event: the start and end of the stream, of a document, of a sequence or a mapping, a
scalar, or an alias. A stack of states says where to continue when a node is complete, and a
stack of positions remembers where each open collection started, for error messages.

Missing nodes are empty plain scalars: a key without a value, a `-` without an item, an anchor
or tag without content. Tag handles are expanded with the `%TAG` directives of the document and
the defaults `!` and `!!` (`tag:yaml.org,2002:`).

## Main definitions

* `FiniteElements.Yaml.Event`, `FiniteElements.Yaml.Parser`
* `FiniteElements.Yaml.nextEvent`
-/

namespace FiniteElements.Yaml

/-- A parsing event. Anchors and tags are empty when absent; a scalar is `plainImplicit` when it
was written plain without a tag (or with the tag `!`), and `quotedImplicit` when it was quoted
without a tag. -/
inductive Event where
  | streamStart
  | streamEnd
  | documentStart
  | documentEnd
  | alias (name : String)
  | scalar (anchor : Option String) (tag : String) (value : String) (plainImplicit : Bool)
      (quotedImplicit : Bool) (style : ScalarStyle)
  | sequenceStart (anchor : Option String) (tag : String)
  | sequenceEnd
  | mappingStart (anchor : Option String) (tag : String)
  | mappingEnd
deriving Repr, Inhabited

/-- Where the parser is. -/
inductive ParseState where
  | streamStart
  | implicitDocumentStart
  | documentStart
  | documentContent
  | documentEnd
  | blockNode
  | blockNodeOrIndentlessSequence
  | flowNode
  | blockSequenceFirstEntry
  | blockSequenceEntry
  | indentlessSequenceEntry
  | blockMappingFirstKey
  | blockMappingKey
  | blockMappingValue
  | flowSequenceFirstEntry
  | flowSequenceEntry
  | flowSequenceEntryMappingKey
  | flowSequenceEntryMappingValue
  | flowSequenceEntryMappingEnd
  | flowMappingFirstKey
  | flowMappingKey
  | flowMappingValue
  | flowMappingEmptyValue
  | finished
deriving Repr, BEq, Inhabited

/-- The parser: the scanner, the current state, the states to return to, the start positions of
the open collections, and the tag directives of the current document. -/
structure Parser where
  scanner : Scanner
  state : ParseState
  states : List ParseState
  marks : List Mark
  tags : List (String × String)
  streamEnded : Bool
deriving Inhabited

/-- A parser at the start of a text. -/
def Parser.ofText (text : String) : Parser :=
  ⟨Scanner.ofText text, .streamStart, [], [], [], false⟩

/-- Parsing steps. -/
abbrev ParseM := StateT Parser (Except YamlError)

/-- The tag directives every document has. -/
def defaultTags : List (String × String) := [("!", "!"), ("!!", "tag:yaml.org,2002:")]

/-- The next token, scanning as far as needed. -/
def peekToken : ParseM Token := do
  let sc ← modifyGet fun p => (p.scanner, { p with scanner := default })
  let ((), sc) ← (fetchMoreTokens sc.budget).run sc
  modify fun p => { p with scanner := sc }
  match sc.queue with
  | t :: _ => pure t
  | [] => pure ⟨.streamEnd, sc.mark, sc.mark⟩

/-- Takes the next token. -/
def skipToken : ParseM Unit := modify fun p =>
  match p.scanner.queue with
  | t :: rest =>
    { p with scanner := { p.scanner with queue := rest, parsed := p.scanner.parsed + 1 },
             streamEnded := t.kind == .streamEnd }
  | [] => p

/-- Stops with a parser error at a token. -/
def parserError {α : Type} (problem : String) (mark : Mark) : ParseM α :=
  throw (.malformed .parser ⟨0, 0, 0⟩ problem mark)

/-- Stops with a parser error at a token inside a construct that starts at `context`. -/
def parserErrorIn {α : Type} (context : Mark) (problem : String) (mark : Mark) : ParseM α :=
  throw (.malformed .parser context problem mark)

/-- Continues with the state on top of the stack. -/
def popState : ParseM Unit := modify fun p =>
  match p.states with
  | s :: rest => { p with state := s, states := rest }
  | [] => p

/-- Remembers a state to return to. -/
def pushState (s : ParseState) : ParseM Unit := modify fun p => { p with states := s :: p.states }

/-- Sets the state. -/
def goTo (s : ParseState) : ParseM Unit := modify fun p => { p with state := s }

/-- Remembers where a collection starts. -/
def pushMark (m : Mark) : ParseM Unit := modify fun p => { p with marks := m :: p.marks }

/-- Forgets where the innermost collection starts, giving it. -/
def popMark : ParseM Mark := do
  let p ← get
  match p.marks with
  | m :: rest => set { p with marks := rest }; pure m
  | [] => pure ⟨0, 0, 0⟩

/-- An empty plain scalar, for a missing node. -/
def emptyScalar : Event := .scalar none "" "" true false .plain

/-- Whether a token is a directive. -/
def TokenKind.isDirective : TokenKind → Bool
  | .versionDirective .. | .tagDirective .. => true
  | _ => false

/-- Reads the directives before a document and adds the default tag handles. -/
def processDirectives : Nat → Bool → ParseM Unit
  | 0, _ => pure ()
  | fuel + 1, versionSeen => do
    let t ← peekToken
    match t.kind with
    | .versionDirective major minor =>
      if versionSeen then parserError "found duplicate %YAML directive" t.start
      if major != 1 || minor != 1 then parserError "found incompatible YAML document" t.start
      skipToken
      processDirectives fuel true
    | .tagDirective handle tagPrefix =>
      if (← get).tags.any (·.1 == handle) then
        parserError "found duplicate %TAG directive" t.start
      modify fun p => { p with tags := p.tags ++ [(handle, tagPrefix)] }
      skipToken
      processDirectives fuel versionSeen
    | _ =>
      modify fun p =>
        { p with tags := p.tags ++ defaultTags.filter fun d => !p.tags.any (·.1 == d.1) }

/-- Skips document end markers. -/
def skipDocumentEnds : Nat → ParseM Token
  | 0 => peekToken
  | fuel + 1 => do
    let t ← peekToken
    if t.kind == .documentEnd then
      skipToken
      skipDocumentEnds fuel
    else pure t

/-- The start of a document (or the end of the stream). -/
def parseDocumentStart (implicit : Bool) : ParseM Event := do
  let t ← if implicit then peekToken else skipDocumentEnds (← get).scanner.budget
  let fuel := (← get).scanner.budget
  if implicit && !t.kind.isDirective && t.kind != .documentStart && t.kind != .streamEnd then
    processDirectives fuel false
    pushState .documentEnd
    goTo .blockNode
    pure .documentStart
  else if t.kind != .streamEnd then
    processDirectives fuel false
    let t ← peekToken
    if t.kind != .documentStart then parserError "did not find expected <document start>" t.start
    pushState .documentEnd
    goTo .documentContent
    skipToken
    pure .documentStart
  else
    goTo .finished
    skipToken
    pure .streamEnd

/-- The content of an explicit document, possibly empty. -/
def parseDocumentContentStart : ParseM Bool := do
  let t ← peekToken
  if t.kind.isDirective || t.kind == .documentStart || t.kind == .documentEnd ||
      t.kind == .streamEnd then
    popState
    pure true
  else pure false

/-- The end of a document, explicit or not. -/
def parseDocumentEnd : ParseM Event := do
  let t ← peekToken
  if t.kind == .documentEnd then skipToken
  modify fun p => { p with tags := [] }
  goTo .documentStart
  pure .documentEnd

/-- A node: an alias, a scalar, the start of a collection, or an empty scalar after an anchor or
a tag. `block` allows block collections; `indentless` allows a sequence whose `-` entries stand
at the indentation of the mapping key they belong to. -/
def parseNode (block indentless : Bool) : ParseM Event := do
  let first ← peekToken
  if let .alias name := first.kind then
    popState
    skipToken
    return .alias name
  let startMark := first.start
  let mut t := first
  let mut anchor : Option String := none
  let mut tagged : Option (String × String) := none
  let mut tagMark := first.start
  match first.kind with
  | .anchor a =>
    anchor := some a
    skipToken
    t ← peekToken
    if let .tag h s := t.kind then
      tagged := some (h, s)
      tagMark := t.start
      skipToken
      t ← peekToken
  | .tag h s =>
    tagged := some (h, s)
    skipToken
    t ← peekToken
    if let .anchor a := t.kind then
      anchor := some a
      skipToken
      t ← peekToken
  | _ => pure ()
  let tag ← match tagged with
    | none => pure ""
    | some (h, s) =>
      if h.isEmpty then pure s
      else
        match (← get).tags.find? (·.1 == h) with
        | some (_, tagPrefix) =>
          if (tagPrefix ++ s).isEmpty then
            parserErrorIn startMark "found undefined tag handle" tagMark
          else pure (tagPrefix ++ s)
        | none => parserErrorIn startMark "found undefined tag handle" tagMark
  if indentless && t.kind == .blockEntry then
    goTo .indentlessSequenceEntry
    return .sequenceStart anchor tag
  match t.kind with
  | .scalar value style =>
    let plainImplicit := (tag.isEmpty && style == .plain) || tag == "!"
    popState
    skipToken
    return .scalar anchor tag value plainImplicit (!plainImplicit && tag.isEmpty) style
  | .flowSequenceStart =>
    goTo .flowSequenceFirstEntry
    return .sequenceStart anchor tag
  | .flowMappingStart =>
    goTo .flowMappingFirstKey
    return .mappingStart anchor tag
  | .blockSequenceStart =>
    if block then
      goTo .blockSequenceFirstEntry
      return .sequenceStart anchor tag
  | .blockMappingStart =>
    if block then
      goTo .blockMappingFirstKey
      return .mappingStart anchor tag
  | _ => pure ()
  if anchor.isSome || !tag.isEmpty then
    popState
    return .scalar anchor tag "" tag.isEmpty false .plain
  parserErrorIn startMark "did not find expected node content" t.start

/-- An entry of a block sequence, or its end. -/
def parseBlockSequenceEntry (first : Bool) : ParseM Event := do
  if first then
    pushMark (← peekToken).start
    skipToken
  let t ← peekToken
  if t.kind == .blockEntry then
    skipToken
    let t ← peekToken
    if t.kind != .blockEntry && t.kind != .blockEnd then
      pushState .blockSequenceEntry
      parseNode true false
    else
      goTo .blockSequenceEntry
      pure emptyScalar
  else if t.kind == .blockEnd then
    popState
    let _ ← popMark
    skipToken
    pure .sequenceEnd
  else
    let context ← popMark
    parserErrorIn context "did not find expected '-' indicator" t.start

/-- An entry of a sequence without indentation, or its end. -/
def parseIndentlessSequenceEntry : ParseM Event := do
  let t ← peekToken
  if t.kind == .blockEntry then
    skipToken
    let t ← peekToken
    if t.kind != .blockEntry && t.kind != .key && t.kind != .value && t.kind != .blockEnd then
      pushState .indentlessSequenceEntry
      parseNode true false
    else
      goTo .indentlessSequenceEntry
      pure emptyScalar
  else
    popState
    pure .sequenceEnd

/-- A key of a block mapping, or its end. -/
def parseBlockMappingKey (first : Bool) : ParseM Event := do
  if first then
    pushMark (← peekToken).start
    skipToken
  let t ← peekToken
  if t.kind == .key then
    skipToken
    let t ← peekToken
    if t.kind != .key && t.kind != .value && t.kind != .blockEnd then
      pushState .blockMappingValue
      parseNode true true
    else
      goTo .blockMappingValue
      pure emptyScalar
  else if t.kind == .blockEnd then
    popState
    let _ ← popMark
    skipToken
    pure .mappingEnd
  else
    let context ← popMark
    parserErrorIn context "did not find expected key" t.start

/-- A value of a block mapping, empty when missing. -/
def parseBlockMappingValue : ParseM Event := do
  let t ← peekToken
  if t.kind == .value then
    skipToken
    let t ← peekToken
    if t.kind != .key && t.kind != .value && t.kind != .blockEnd then
      pushState .blockMappingKey
      parseNode true true
    else
      goTo .blockMappingKey
      pure emptyScalar
  else
    goTo .blockMappingKey
    pure emptyScalar

/-- An entry of a flow sequence, or its end. A `key: value` entry is a one-pair mapping. -/
def parseFlowSequenceEntry (first : Bool) : ParseM Event := do
  if first then
    pushMark (← peekToken).start
    skipToken
  let mut t ← peekToken
  if t.kind != .flowSequenceEnd then
    if !first then
      if t.kind == .flowEntry then
        skipToken
        t ← peekToken
      else
        let context ← popMark
        parserErrorIn context "did not find expected ',' or ']'" t.start
    if t.kind == .key then
      goTo .flowSequenceEntryMappingKey
      skipToken
      return .mappingStart none ""
    else if t.kind != .flowSequenceEnd then
      pushState .flowSequenceEntry
      return ← parseNode false false
  popState
  let _ ← popMark
  skipToken
  pure .sequenceEnd

/-- The key of a one-pair mapping in a flow sequence. -/
def parseFlowSequenceEntryMappingKey : ParseM Event := do
  let t ← peekToken
  if t.kind != .value && t.kind != .flowEntry && t.kind != .flowSequenceEnd then
    pushState .flowSequenceEntryMappingValue
    parseNode false false
  else
    skipToken
    goTo .flowSequenceEntryMappingValue
    pure emptyScalar

/-- The value of a one-pair mapping in a flow sequence. -/
def parseFlowSequenceEntryMappingValue : ParseM Event := do
  let t ← peekToken
  if t.kind == .value then
    skipToken
    let t ← peekToken
    if t.kind != .flowEntry && t.kind != .flowSequenceEnd then
      pushState .flowSequenceEntryMappingEnd
      return ← parseNode false false
  goTo .flowSequenceEntryMappingEnd
  pure emptyScalar

/-- A key of a flow mapping, or its end. -/
def parseFlowMappingKey (first : Bool) : ParseM Event := do
  if first then
    pushMark (← peekToken).start
    skipToken
  let mut t ← peekToken
  if t.kind != .flowMappingEnd then
    if !first then
      if t.kind == .flowEntry then
        skipToken
        t ← peekToken
      else
        let context ← popMark
        parserErrorIn context "did not find expected ',' or '\x7d'" t.start
    if t.kind == .key then
      skipToken
      let next ← peekToken
      if next.kind != .value && next.kind != .flowEntry && next.kind != .flowMappingEnd then
        pushState .flowMappingValue
        return ← parseNode false false
      else
        goTo .flowMappingValue
        return emptyScalar
    else if t.kind != .flowMappingEnd then
      pushState .flowMappingEmptyValue
      return ← parseNode false false
  popState
  let _ ← popMark
  skipToken
  pure .mappingEnd

/-- A value of a flow mapping, empty when missing. -/
def parseFlowMappingValue (empty : Bool) : ParseM Event := do
  let t ← peekToken
  if empty then
    goTo .flowMappingKey
    return emptyScalar
  if t.kind == .value then
    skipToken
    let t ← peekToken
    if t.kind != .flowEntry && t.kind != .flowMappingEnd then
      pushState .flowMappingKey
      return ← parseNode false false
  goTo .flowMappingKey
  pure emptyScalar

/-- The next event, none after the end of the stream. -/
def nextEvent : ParseM (Option Event) := do
  let p ← get
  if p.streamEnded || p.state == .finished then return none
  match p.state with
  | .streamStart =>
    let t ← peekToken
    if t.kind != .streamStart then parserError "did not find expected <stream-start>" t.start
    goTo .implicitDocumentStart
    skipToken
    pure (some .streamStart)
  | .implicitDocumentStart => some <$> parseDocumentStart true
  | .documentStart => some <$> parseDocumentStart false
  | .documentContent =>
    if ← parseDocumentContentStart then pure (some emptyScalar)
    else some <$> parseNode true false
  | .documentEnd => some <$> parseDocumentEnd
  | .blockNode => some <$> parseNode true false
  | .blockNodeOrIndentlessSequence => some <$> parseNode true true
  | .flowNode => some <$> parseNode false false
  | .blockSequenceFirstEntry => some <$> parseBlockSequenceEntry true
  | .blockSequenceEntry => some <$> parseBlockSequenceEntry false
  | .indentlessSequenceEntry => some <$> parseIndentlessSequenceEntry
  | .blockMappingFirstKey => some <$> parseBlockMappingKey true
  | .blockMappingKey => some <$> parseBlockMappingKey false
  | .blockMappingValue => some <$> parseBlockMappingValue
  | .flowSequenceFirstEntry => some <$> parseFlowSequenceEntry true
  | .flowSequenceEntry => some <$> parseFlowSequenceEntry false
  | .flowSequenceEntryMappingKey => some <$> parseFlowSequenceEntryMappingKey
  | .flowSequenceEntryMappingValue => some <$> parseFlowSequenceEntryMappingValue
  | .flowSequenceEntryMappingEnd =>
    goTo .flowSequenceEntry
    pure (some .mappingEnd)
  | .flowMappingFirstKey => some <$> parseFlowMappingKey true
  | .flowMappingKey => some <$> parseFlowMappingKey false
  | .flowMappingValue => some <$> parseFlowMappingValue false
  | .flowMappingEmptyValue => some <$> parseFlowMappingValue true
  | .finished => pure none

end FiniteElements.Yaml
