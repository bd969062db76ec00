import FiniteElements.Yaml.Parser

/-!
# Composing YAML events into nodes

The node tree of the first document of a stream: scalars with their tag, sequences, mappings,
and aliases. An anchor names the node it stands before from the moment that node starts; an
alias takes the node its anchor last named. An alias met while its node is still being read (an
alias inside its own anchored node) keeps no target, which makes the value circular. An alias to a
name never anchored is an error.

Only the first document is read; an empty stream has no node.

## Main definitions

* `FiniteElements.Yaml.Node`, `FiniteElements.Yaml.composeDocument`
-/

namespace FiniteElements.Yaml

/-- A node of a YAML document. A scalar is `implicit` when written plain without a tag. -/
inductive Node where
  | scalar (value : String) (tag : String) (implicit : Bool)
  | sequence (items : List Node)
  | mapping (entries : List (Node × Node))
  | alias (name : String) (target : Option Node)
deriving Inhabited

/-- The composer: the parser, the event looked at but not taken, the anchors by name (latest
first) with the identity of their node, and the anchored nodes read completely. -/
structure Composer where
  parser : Parser
  pending : Option Event
  anchors : List (String × Nat)
  finished : List (Nat × Node)
  fresh : Nat
deriving Inhabited

/-- Composition steps. -/
abbrev ComposeM := StateT Composer (Except YamlError)

/-- The next event, without taking it. -/
def peekEvent : ComposeM Event := do
  let c ← get
  match c.pending with
  | some e => pure e
  | none =>
    let (e, p) ← nextEvent.run c.parser
    let e := e.getD .streamEnd
    set { c with parser := p, pending := some e }
    pure e

/-- Takes the event looked at. -/
def takeEvent : ComposeM Unit := modify fun c => { c with pending := none }

/-- Names the node that starts now, giving its identity. -/
def openAnchor : Option String → ComposeM (Option Nat)
  | none => pure none
  | some name => do
    let c ← get
    set { c with anchors := (name, c.fresh) :: c.anchors, fresh := c.fresh + 1 }
    pure (some c.fresh)

/-- Records an anchored node as read completely. -/
def closeAnchor (id : Option Nat) (n : Node) : ComposeM Unit :=
  match id with
  | none => pure ()
  | some i => modify fun c => { c with finished := (i, n) :: c.finished }

mutual

/-- The node that starts with the next event. -/
def composeNode : Nat → ComposeM Node
  | 0 => pure (.scalar "" "" true)
  | fuel + 1 => do
    match ← peekEvent with
    | .scalar anchor tag value implicit _ _ =>
      let id ← openAnchor anchor
      takeEvent
      let n := Node.scalar value tag implicit
      closeAnchor id n
      pure n
    | .alias name =>
      let c ← get
      match c.anchors.lookup name with
      | none => throw (.composition ("unknown anchor '" ++ name ++ "' referenced"))
      | some i =>
        takeEvent
        pure (.alias name (c.finished.lookup i))
    | .sequenceStart anchor _ =>
      let id ← openAnchor anchor
      takeEvent
      let items ← composeItems fuel []
      takeEvent
      let n := Node.sequence items
      closeAnchor id n
      pure n
    | .mappingStart anchor _ =>
      let id ← openAnchor anchor
      takeEvent
      let entries ← composeEntries fuel []
      takeEvent
      let n := Node.mapping entries
      closeAnchor id n
      pure n
    | _ =>
      takeEvent
      pure (.scalar "" "" true)

/-- The items of a sequence up to its end. -/
def composeItems : Nat → List Node → ComposeM (List Node)
  | 0, acc => pure acc
  | fuel + 1, acc => do
    match ← peekEvent with
    | .sequenceEnd => pure acc
    | _ =>
      let n ← composeNode fuel
      composeItems fuel (acc ++ [n])

/-- The entries of a mapping up to its end. -/
def composeEntries : Nat → List (Node × Node) → ComposeM (List (Node × Node))
  | 0, acc => pure acc
  | fuel + 1, acc => do
    match ← peekEvent with
    | .mappingEnd => pure acc
    | _ =>
      let k ← composeNode fuel
      let v ← composeNode fuel
      composeEntries fuel (acc ++ [(k, v)])

end

/-- The root node of the first document of a text, none for an empty stream. An empty text reads
as a single line break. -/
def composeDocument (text : String) : Except YamlError (Option Node) :=
  let text := if text.isEmpty then "\n" else text
  let fuel := 8 * (text.length + 8)
  let run : ComposeM (Option Node) := do
    let _ ← peekEvent
    takeEvent
    match ← peekEvent with
    | .documentStart =>
      takeEvent
      let n ← composeNode fuel
      let _ ← peekEvent
      takeEvent
      pure (some n)
    | _ => pure none
  (run.run' ⟨Parser.ofText text, none, [], [], 0⟩)

end FiniteElements.Yaml
