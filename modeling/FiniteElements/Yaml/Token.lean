/-!
# Tokens of YAML text

A YAML stream is read in three steps: the scanner cuts the characters into tokens, the parser
turns tokens into events (the start and end of documents, collections and scalars), and the
composer builds the node tree of the first document. This file holds what the steps share:
positions in the text, tokens, and the errors of each step with their messages.

A position counts characters from zero: its index in the whole text, its line and its column.
An error message names a line when one is known: for a scanner error the line of the problem
counted from one; for a parser error the line of the problem counted from zero (the reader does
not advance the line before it reports); a position on the first line names none.

## Main definitions

* `FiniteElements.Yaml.Mark`, `FiniteElements.Yaml.Token`, `FiniteElements.Yaml.TokenKind`
* `FiniteElements.Yaml.YamlError`, `FiniteElements.Yaml.YamlError.message`
-/

namespace FiniteElements.Yaml

/-- A position in the text: character index, line and column, all from zero. -/
structure Mark where
  index : Nat
  line : Nat
  column : Nat
deriving Repr, BEq, Inhabited

/-- How a scalar is written. -/
inductive ScalarStyle where
  | plain
  | singleQuoted
  | doubleQuoted
  | literal
  | folded
deriving Repr, BEq, Inhabited

/-- What a token is. -/
inductive TokenKind where
  | streamStart
  | streamEnd
  /-- `%YAML major.minor`. -/
  | versionDirective (major minor : Nat)
  /-- `%TAG handle prefix`. -/
  | tagDirective (handle tagPrefix : String)
  | documentStart
  | documentEnd
  | blockSequenceStart
  | blockMappingStart
  | blockEnd
  | flowSequenceStart
  | flowSequenceEnd
  | flowMappingStart
  | flowMappingEnd
  | blockEntry
  | flowEntry
  | key
  | value
  | alias (name : String)
  | anchor (name : String)
  | tag (handle suffix : String)
  | scalar (text : String) (style : ScalarStyle)
deriving Repr, BEq, Inhabited

/-- A token with where it starts and ends. -/
structure Token where
  kind : TokenKind
  start : Mark
  stop : Mark
deriving Repr, Inhabited

/-- The step of reading that found a problem. -/
inductive Stage where
  | reader
  | scanner
  | parser
deriving Repr, BEq, Inhabited

/-- Why YAML text cannot be read. -/
inductive YamlError where
  /-- A problem at `problemMark` met while reading something that starts at `contextMark`. -/
  | malformed (stage : Stage) (contextMark : Mark) (problem : String) (problemMark : Mark)
  /-- The tokens are well formed but do not make a value. -/
  | composition (text : String)
deriving Repr, Inhabited

namespace YamlError

/-- The line a syntax error names, `0` for none. -/
def line : YamlError → Nat
  | .malformed stage context _ problem =>
    if problem.line != 0 then
      if stage == .scanner then problem.line + 1 else problem.line
    else context.line
  | .composition _ => 0

/-- The text of an error. -/
def message : YamlError → String
  | e@(.malformed _ _ problem _) =>
    let place := if e.line != 0 then s!"line {e.line}: " else ""
    let what := if problem.isEmpty then "unknown problem parsing YAML content" else problem
    "yaml: " ++ place ++ what
  | .composition text => "yaml: " ++ text

end YamlError

end FiniteElements.Yaml
