import FiniteElements.Family.Continuous
import FiniteElements.Family.Discontinuous
import FiniteElements.Family.RaviartThomas

/-!
# Elements by name

An element name reads `Family(degree)` or `Family<dim>(degree)`, with blanks (space, tab, line
feed, form feed, carriage return) allowed around every part: the family is a word of ASCII letters,
digits and underscores, the dimension a single digit, the degree a run of digits. A dimension in
the name must agree with the one asked for, unless that is `0`; the degree must fit a signed
64-bit integer.

## Main definitions

* `FiniteElements.Family.families`, `FiniteElements.Family.ElementName`,
  `FiniteElements.Family.ElementName.parse?`
* `FiniteElements.Family.ofName`: the element a name denotes.
-/

namespace FiniteElements.Family

open FiniteElements.Element

/-- The family names, sorted. -/
def families : List String := ["FE_DGQ", "FE_Q", "FE_RaviartThomas"]

/-- The blanks of element names. -/
def isBlank (c : Char) : Bool :=
  c == ' ' || c == '\t' || c == '\n' || c.toNat == 12 || c == '\r'

/-- The characters of a family word. -/
def isWordChar (c : Char) : Bool :=
  ('a' ≤ c && c ≤ 'z') || ('A' ≤ c && c ≤ 'Z') || ('0' ≤ c && c ≤ '9') || c == '_'

/-- The ASCII digits. -/
def isDigitChar (c : Char) : Bool := '0' ≤ c && c ≤ '9'

/-- The parts of an element name. -/
structure ElementName where
  family : String
  dim : Option Nat
  degreeDigits : String
deriving Repr, BEq

/-- The value of a run of digits. -/
def digitsValue (ds : List Char) : Nat := ds.foldl (fun n d => 10 * n + (d.toNat - '0'.toNat)) 0

/-- The characters after leading blanks. -/
def skipBlanks (cs : List Char) : List Char := cs.dropWhile isBlank

/-- The optional `<d>` part and what follows it. -/
def dimPart : List Char → Option (Option Nat × List Char)
  | '<' :: rest =>
    match skipBlanks rest with
    | d :: rest =>
      if isDigitChar d then
        match skipBlanks rest with
        | '>' :: rest => some (some (digitsValue [d]), rest)
        | _ => none
      else none
    | [] => none
  | cs => some (none, cs)

/-- The `(degree)` part, which must end the name. -/
def degreePart : List Char → Option (List Char)
  | '(' :: rest =>
    let rest := skipBlanks rest
    let ds := rest.takeWhile isDigitChar
    match skipBlanks (rest.dropWhile isDigitChar) with
    | ')' :: tail => if !ds.isEmpty && (skipBlanks tail).isEmpty then some ds else none
    | _ => none
  | _ => none

/-- The parts of a name, if it reads as one. -/
def ElementName.parse? (s : String) : Option ElementName := do
  let cs := skipBlanks s.toList
  let family := cs.takeWhile isWordChar
  if family.isEmpty then none
  let (dim, rest) ← dimPart (skipBlanks (cs.dropWhile isWordChar))
  let ds ← degreePart (skipBlanks rest)
  return ⟨String.ofList family, dim, String.ofList ds⟩

/-- The largest signed 64-bit integer. -/
def maxDegree : Nat := Nat.pow 2 63 - 1

/-- The member of a family of a dimension and degree. -/
def member (family : String) (dim degree : Int) : Outcome Element :=
  if family == "FE_Q" then continuous dim degree
  else if family == "FE_DGQ" then discontinuous dim degree
  else raviartThomas dim degree

/-- The element a name denotes in a dimension (`0`: the one in the name). -/
def ofName (name : String) (dim : Int) : Outcome Element := do
  let some parts := ElementName.parse? name | report (.unreadableName name)
  if !families.contains parts.family then report (.unknownFamily parts.family families)
  let dim ← match parts.dim with
    | some d =>
      if dim != 0 && dim != d then report (.nameDimension name d dim) else pure (d : Int)
    | none => pure dim
  let degree := digitsValue parts.degreeDigits.toList
  if degree > maxDegree then report (.degreeOutOfRange name parts.degreeDigits)
  member parts.family dim degree

end FiniteElements.Family
