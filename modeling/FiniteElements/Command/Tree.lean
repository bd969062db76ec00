import FiniteElements.Command.Flags
import FiniteElements.Text.Case
import FiniteElements.Text.Blank

/-!
# The commands of the command line

The program has three commands, `describe`, `constraints` and `check`, each taking element names
and an input file; the program itself only prints its help. Its own flags (`--dim`,
`--verbose`, `--config`, `--profile`) hold for every command.

`findCommand` picks the command from the arguments: the first argument that is neither a flag
nor a flag's value (as `stripFlags` tells them) must name one, and is removed. A word that names
none is an unknown command; commands close to it in spelling (at most two edits apart, case
ignored) or starting with it are suggested.

`helpText` is the help a command prints: its description, how to call it, and its flags.

## Main definitions

* `FiniteElements.Command.Action`, `FiniteElements.Command.findCommand`
* `FiniteElements.Command.suggestions`, `FiniteElements.Command.helpText`
-/

namespace FiniteElements.Command

open Text

/-- The name the program is called by. -/
def programName : String := "gofe"

/-- The commands of the program. -/
inductive Action where
  | describe
  | constraints
  | check
deriving Repr, BEq, Inhabited

namespace Action

/-- Every command, in alphabetical order. -/
def all : List Action := [.check, .constraints, .describe]

/-- The name of a command. -/
def name : Action → String
  | .describe => "describe"
  | .constraints => "constraints"
  | .check => "check"

/-- The command of a name. -/
def ofName (s : String) : Option Action := all.find? (·.name == s)

/-- How a command is called. -/
def use : Action → String
  | .describe => "describe [element names]"
  | .constraints => "constraints [element names]"
  | .check => "check [element names]"

/-- The one-line description of a command. -/
def short : Action → String
  | .describe => "Print the descriptor and index tables of elements"
  | .constraints => "Print the hanging node constraints of elements"
  | .check => "Verify the composition, transfer and constraint laws of elements"

/-- The description of a command. -/
def long : Action → String
  | .describe => "\nPrints the dof layout, primitivity, composition tables and transfer " ++
      "availability of each element.\n\ngofe describe \"FE_Q(2)\" \"FE_RaviartThomas(0)\" -D 2"
  | .constraints => "\nPrints, for every dof on a refined face, its expression in terms of the " ++
      "dofs on the coarse face.\n\ngofe constraints \"FE_Q(2)\" -D 3"
  | .check => "\nChecks, for each element, that component indices round trip, that " ++
      "prolongation matrices agree on\ndofs shared by children, that restriction matrices " ++
      "invert prolongation and that face constraints\nagree across shared lines. Elements are " ++
      "checked in parallel.\n\ngofe check -I elements.yaml --workers 4"

end Action

/-- The example input file shown in help and errors. -/
def exampleFile : String :=
  "\n########################################\nTitle: \"Test Case\"\nDimension: 2\n" ++
  "Tolerance: 1.e-10\nElements:\n  - Name: taylor-hood\n" ++
  "    Packing: interleaved # Can be \"blocked\"\n    Bases:\n      - Element: FE_Q(2)\n" ++
  "        Multiplicity: 2\n      - Element: FE_Q(1)\n  - Name: flux\n    Bases:\n" ++
  "      - Element: FE_RaviartThomas(0)\n########################################\n"

/-- The description of the program. -/
def programLong : String :=
  "\nBuilds finite elements and composite (vector valued) elements and reports how their " ++
  "degrees of\nfreedom are composed, how they transfer between refinement levels and how " ++
  "hanging nodes are\nconstrained.\n\ngofe describe \"FE_Q(2)\" -D 3\ngofe check -I elements.yaml"

/-- The flags of the program, which hold for every command. -/
def programFlags : List Flag :=
  [⟨"config", none, .text, "", "config file (default is $HOME/.gofe.yaml)"⟩,
   ⟨"dim", some 'D', .whole, "2", "space dimension of elements named on the command line"⟩,
   ⟨"verbose", some 'v', .switch, "false", "log progress to stderr"⟩,
   ⟨"profile", none, .text, "", "write a cpu or mem profile to the current directory"⟩]

/-- The help flag of a command. -/
def helpFlag (command : String) : Flag :=
  ⟨"help", some 'h', .switch, "false", "help for " ++ command⟩

/-- The number of workers `check` uses by default. -/
def defaultWorkers : Nat := 8

/-- The flags of a command itself. -/
def Action.flags : Action → List Flag
  | a =>
    let input : Flag := ⟨"inputFile", some 'I', .text, "",
      "YAML file describing the elements, like:" ++ exampleFile⟩
    match a with
    | .describe => [input, ⟨"faces", some 'f', .switch, "false", "also print the face tables"⟩]
    | .constraints =>
      [input, ⟨"dense", none, .switch, "false",
        "print the full matrix instead of one line per constrained dof"⟩]
    | .check =>
      [input, ⟨"workers", some 'w', .whole, toString defaultWorkers,
        "number of elements checked concurrently"⟩]

/-- The flags a command reads: its own, its help flag and the program's. -/
def Action.allFlags (a : Action) : List Flag := a.flags ++ [helpFlag a.name] ++ programFlags

/-- The arguments without the first one equal to `x`. -/
def removeFirst (x : String) : List String → List String
  | [] => []
  | y :: rest => if y == x then rest else y :: removeFirst x rest

/-- The command the arguments run (none: the program itself) and the arguments left for it. -/
def findCommand (args : List String) : Option Action × List String :=
  match stripFlags programFlags args with
  | word :: _ =>
    match Action.ofName word with
    | some a => (some a, removeFirst word args)
    | none => (none, args)
  | [] => (none, args)

/-- The edit distance between two byte strings: insertions, deletions and substitutions. -/
def editDistance (s t : List UInt8) : Nat :=
  let first := List.range (s.length + 1)
  let last := t.zipIdx.foldl (fun (prev : List Nat) (tc, j) =>
    s.zipIdx.foldl (fun (cur : List Nat) (sc, i) =>
      let v := if sc == tc then prev.getD i 0
        else 1 + min (min (prev.getD (i + 1) 0) (cur.getD i 0)) (prev.getD i 0)
      cur ++ [v]) [j + 1]) first
  last.getD s.length 0

/-- The commands to suggest for a word that names none: those within two byte edits of it, or
starting with it, both in lower case. -/
def suggestions (word : String) : List String :=
  let w := Text.lowerText word
  (Action.all.map Action.name).filter fun n =>
    let n' := Text.lowerText n
    editDistance w.toUTF8.toList n'.toUTF8.toList ≤ 2 || n'.startsWith w

/-- The error of a word that names no command, with suggestions. -/
def unknownCommand (word : String) : String :=
  let hint := match suggestions word with
    | [] => ""
    | ss => "\n\nDid you mean this?\n" ++ String.join (ss.map fun s => "\t" ++ s ++ "\n")
  "unknown command " ++ quote word ++ " for " ++ quote programName ++ hint

/-- Text without trailing white space. -/
def trimEnd (s : String) : String := String.ofList (s.toList.reverse.dropWhile isWhite).reverse

/-- `s` padded with spaces to `n` characters. -/
def padRight (s : String) (n : Nat) : String := s ++ spaces (n - s.length)

/-- The help of the program. -/
def programHelp : String :=
  let names := Action.all.map Action.name ++ ["help"]
  let width := names.foldl (fun m n => max m n.length) 11
  let shorts := Action.all.map Action.short ++ ["Help about any command"]
  let listing := String.join ((names.zip shorts).map fun (n, s) =>
    "\n  " ++ padRight n width ++ " " ++ s)
  trimEnd programLong ++ "\n\n" ++ "Usage:\n  " ++ programName ++
    " [command]\n\nAvailable Commands:" ++ listing ++ "\n\nFlags:\n" ++ trimEnd (flagUsages (programFlags ++ [helpFlag programName])) ++
    "\n\nUse \"" ++ programName ++ " [command] --help\" for more information about a command.\n"

/-- The help of a command. -/
def Action.help (a : Action) : String :=
  trimEnd a.long ++ "\n\n" ++ "Usage:\n  " ++ programName ++ " " ++ a.use ++
    " [flags]\n\nFlags:\n" ++ trimEnd (flagUsages (a.flags ++ [helpFlag a.name])) ++ "\n\nGlobal Flags:\n" ++
    trimEnd (flagUsages programFlags) ++ "\n"

/-- The help of a command, or of the program. -/
def helpText : Option Action → String
  | some a => a.help
  | none => programHelp

end FiniteElements.Command
