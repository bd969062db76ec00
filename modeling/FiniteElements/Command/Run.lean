import FiniteElements.Command.Tree
import FiniteElements.Command.Report
import FiniteElements.Input.Parameters

/-!
# Running the command line

`runCommandLine` runs the program on its arguments. The run is a `Session`: it either finishes
with a `Transcript` (what was printed and the error the run ended with) or first asks for the
contents of the input file named by `-I`, and finishes once given them. A run reads at most that
one file.

A run goes as follows:

* the command is found (`findCommand`); a word that names no command is an error, printed
  with `Error: ` and a pointer to the help;
* the command's flags are read; a bad flag is an error printed with `Error: `;
* with `--help`, or without a command, the help is printed;
* an unknown `--profile` mode is an error;
* the command loads its elements: those named on the command line (one base each, in the
  dimension `--dim`), then those of the input file (read over that dimension and a tolerance of
  `1e-10`); it needs at least one of the two;
* the command prints its report; an error it ends with is printed after `Error: `.

## Main definitions

* `FiniteElements.Command.CliError`, `FiniteElements.Command.Transcript`,
  `FiniteElements.Command.Session`
* `FiniteElements.Command.runCommandLine`
-/

namespace FiniteElements.Command

open Element Input

/-- Why a run of the command line fails. -/
inductive CliError where
  /-- Arguments that do not make a call of a command. -/
  | usage (text : String)
  /-- The input file cannot be read. -/
  | file (text : String)
  /-- The input file cannot be understood. -/
  | input (path : String) (e : InputError)
  /-- An element cannot be made or reported on. -/
  | element (f : Failure)
  /-- Some elements failed their checks. -/
  | failedChecks (failed total : Nat)
deriving Inhabited

/-- The text of an error. -/
def CliError.message : CliError → String
  | .usage text | .file text => text
  | .input path e => "parsing " ++ path ++ ": " ++ e.message
  | .element f => f.error.message
  | .failedChecks failed total => toString failed ++ " of " ++ toString total ++ " elements failed"

/-- The element failure behind an error, if any. -/
def CliError.failure? : CliError → Option Failure
  | .element f => some f
  | _ => none

/-- What a run printed, and the error it ended with. -/
structure Transcript where
  output : String
  error : Option CliError
deriving Inhabited

/-- A run that ends with an error, printing it after what was printed before. -/
def Transcript.failing (output : String) (e : CliError) : Transcript :=
  ⟨output ++ "Error: " ++ e.message ++ "\n", some e⟩

/-- A run of the command line: finished, or waiting for the contents of a file (or why it cannot
be read). -/
inductive Session where
  | finished (t : Transcript)
  | reading (path : String) (resume : Except String String → Transcript)

/-- The text value of a flag. -/
def Settings.text (s : Settings) (name : String) : String :=
  s.foldl (fun acc (n, v) => if n == name then (match v with | .text t => t | _ => acc) else acc) ""

/-- The whole value of a flag. -/
def Settings.whole (s : Settings) (name : String) (dflt : Int) : Int :=
  s.foldl (fun acc (n, v) => if n == name then (match v with | .whole k => k | _ => acc) else acc)
    dflt

/-- The switch value of a flag. -/
def Settings.switch (s : Settings) (name : String) : Bool :=
  s.foldl (fun acc (n, v) => if n == name then (match v with | .switch b => b | _ => acc) else acc)
    false

/-- The input elements named on the command line: one base each. -/
def namedElements (names : List String) : List ElementSpec :=
  names.map fun n => ⟨n, "", [⟨n, 1⟩]⟩

/-- Builds the elements of a run: the named ones, then those of the parameters read from the
input file; gives them with the tolerance. -/
def buildElements (names : List String) (p : Parameters) : Outcome (List Element × Float) := do
  let p := { p with elements := namedElements names ++ p.elements }
  let els ← p.buildAll
  return (els, p.tolerance)

/-- What a command prints for its elements. -/
def report (a : Action) (settings : Settings) (els : List Element) (tol : Float) : Transcript :=
  match a with
  | .describe =>
    let faces := settings.switch "faces"
    ⟨String.join (els.map fun e => describeText e faces), none⟩
  | .constraints =>
    let dense := settings.switch "dense"
    let step (acc : String × Option Failure) (e : Element) : String × Option Failure :=
      match acc with
      | (out, none) => let (text, err) := constraintsText e dense; (out ++ text, err)
      | stopped => stopped
    match els.foldl step ("", none) with
    | (out, none) => ⟨out, none⟩
    | (out, some f) => Transcript.failing out (.element f)
  | .check =>
    match checkElements els tol (settings.whole "workers" defaultWorkers) with
    | .error f => Transcript.failing "" (.element f)
    | .ok results =>
      let (out, failed) := checkText results
      if failed == 0 then ⟨out, none⟩ else Transcript.failing out (.failedChecks failed results.length)

/-- The transcript once the elements are known (or failed to be made). -/
def finishWith (a : Action) (settings : Settings) (built : Except CliError (List Element × Float)) :
    Transcript :=
  match built with
  | .error e => Transcript.failing "" e
  | .ok (els, tol) => report a settings els tol

/-- Runs a command with its flags read. -/
def runAction (a : Action) (r : Reading) : Session :=
  let settings := r.settings
  let profile := settings.text "profile"
  if settings.switch "help" then .finished ⟨helpText (some a), none⟩
  else if !(profile.isEmpty || profile == "cpu" || profile == "mem") then
    .finished (Transcript.failing "" (.usage ("unknown profile mode " ++ Text.quote profile ++
      ", use cpu or mem")))
  else
    let path := settings.text "inputFile"
    let dim := settings.whole "dim" 2
    let names := r.positional
    let start : Parameters := ⟨"", dim, defaultTolerance, []⟩
    let fromParameters (p : Parameters) : Transcript :=
      finishWith a settings ((buildElements names p).mapError CliError.element)
    if path.isEmpty && names.isEmpty then
      .finished (Transcript.failing "" (.usage ("must name elements on the command line or " ++
        "supply an input file (-I, --inputFile)\nExample File:" ++ exampleFile)))
    else if path.isEmpty then .finished (fromParameters start)
    else
      .reading path fun contents =>
        match contents with
        | .error why => Transcript.failing "" (.file why)
        | .ok text =>
          match Parameters.read text start with
          | .error e => Transcript.failing "" (.input path e)
          | .ok p => fromParameters p

/-- Runs the program on its arguments. -/
def runCommandLine (args : List String) : Session :=
  match findCommand args with
  | (none, rest) =>
    match stripFlags programFlags rest with
    | word :: _ =>
      let e := CliError.usage (unknownCommand word)
      .finished ⟨"Error: " ++ e.message ++ "\nRun '" ++ programName ++ " --help' for usage.\n",
        some e⟩
    | [] =>
      match parseFlags (programFlags ++ [helpFlag programName]) rest with
      | .error why => .finished (Transcript.failing "" (.usage why))
      | .ok _ => .finished ⟨helpText none, none⟩
  | (some a, rest) =>
    match parseFlags a.allFlags rest with
    | .error why => .finished (Transcript.failing "" (.usage why))
    | .ok r => runAction a r

end FiniteElements.Command
