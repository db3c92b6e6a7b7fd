import Lockstep.CommandLine.Arguments
import Lockstep.Correlation.Basic
import Lockstep.Number.Literal
import Lockstep.Report.Sarif
/-!
The commands of the program and their arguments.
-/

set_option autoImplicit false

namespace Lockstep.CommandLine

structure Analyze where
  graph : Text
  catalogues : List Text
  format : ReportFormat := .text
  output : Option Text := none
  config : CorrelationConfig := { }
  deriving DecidableEq, Repr

inductive Command where
  | analyze (a : Analyze)
  | check (graph : Text)
  | checkCatalogue (catalogue : Text)
  | dot (graph : Text) (output title : Option Text)
  deriving DecidableEq, Repr

/-- A command line that was understood: how much to log, and what to do. -/
structure Invocation where
  verbosity : Nat := 0
  command : Option Command := none
  deriving DecidableEq, Repr

/-- Why nothing is to be done. -/
inductive Refusal where
  | help
  | version
  | problem (program : Text) (p : Problem)
  deriving DecidableEq, Repr

inductive TopKey where
  | help | version | verbose
  deriving DecidableEq, Repr

inductive Key where
  | help | catalogue | format | output | policy | depth | most | title
  deriving DecidableEq, Repr

def programName : Text := "dualflow".toList

def topShape : Shape TopKey where
  program := programName
  switches := [
    { key := .help, names := ["-h".toList, "--help".toList] },
    { key := .version, names := ["--version".toList] },
    { key := .verbose, names := ["-v".toList, "--verbose".toList] }]
  operand := "COMMAND".toList
  isCommand := true

inductive CommandName where
  | analyze | check | checkCatalogue | dot
  deriving DecidableEq, Repr

namespace CommandName

def all : List CommandName := [.analyze, .check, .checkCatalogue, .dot]

def word : CommandName → Text
  | .analyze => "analyze".toList
  | .check => "check".toList
  | .checkCatalogue => "check-catalogue".toList
  | .dot => "dot".toList

def ofWord? (t : Text) : Option CommandName := all.find? (·.word == t)

def helpSwitch : Switch Key := { key := .help, names := ["-h".toList, "--help".toList] }
def outputSwitch : Switch Key :=
  { key := .output, names := ["-o".toList, "--output".toList], takesValue := true }

def switches : CommandName → List (Switch Key)
  | .analyze => [helpSwitch,
    { key := .catalogue, names := ["-c".toList, "--catalogue".toList], takesValue := true },
    { key := .format, names := ["-f".toList, "--format".toList], takesValue := true },
    outputSwitch,
    { key := .policy, names := ["--policy".toList], takesValue := true },
    { key := .depth, names := ["--call-depth".toList], takesValue := true },
    { key := .most, names := ["--max-quadruples".toList], takesValue := true }]
  | .check => [helpSwitch]
  | .checkCatalogue => [helpSwitch]
  | .dot => [helpSwitch, outputSwitch,
    { key := .title, names := ["--title".toList], takesValue := true }]

def operand : CommandName → Text
  | .checkCatalogue => "FILE".toList
  | _ => "GRAPH".toList

def shape (n : CommandName) : Shape Key where
  program := programName ++ ' ' :: n.word
  switches := n.switches
  operand := n.operand

end CommandName

/-- The arguments of a command as far as they have been given. -/
structure Given where
  operand : Option Text := none
  catalogues : List Text := []
  format : ReportFormat := .text
  output : Option Text := none
  config : CorrelationConfig := { }
  title : Option Text := none

def chosen {α : Type} (s : Switch Key) (value : Text) (choices : List Text) (found : Option α) :
    Except Problem α :=
  match found with
  | some a => .ok a
  | none => .error (.invalidChoice s.shown value choices)

def wholeValue (s : Switch Key) (value : Text) : Except Problem Int :=
  match Literal.int? value with
  | some i => .ok i
  | none => .error (.invalidWhole s.shown value)

/-- Takes up one argument. The request for help ends the reading. -/
def Given.take (g : Given) : Event Key → Except (Option Problem) Given
  | .operand words => .ok { g with operand := words.head? }
  | .switch s value =>
    let v := value.getD []
    let set {α : Type} (r : Except Problem α) (f : α → Given) : Except (Option Problem) Given :=
      match r with
      | .ok a => .ok (f a)
      | .error p => .error (some p)
    match s.key with
    | .help => .error none
    | .catalogue => .ok { g with catalogues := g.catalogues ++ [v] }
    | .output => .ok { g with output := some v }
    | .title => .ok { g with title := some v }
    | .format => set (chosen s v (ReportFormat.all.map (·.word)) (ReportFormat.ofWord? v))
        fun format => { g with format }
    | .policy => set (chosen s v ([SyncPolicy.routine, .callSite].map (·.word))
        (SyncPolicy.ofWord? v)) fun policy => { g with config := { g.config with policy } }
    | .depth => set (wholeValue s v) fun depth => { g with config := { g.config with depth } }
    | .most => set (wholeValue s v) fun most => { g with config := { g.config with most } }

def Given.takeAll (g : Given) : List (Event Key) → Except (Option Problem) Given
  | [] => .ok g
  | e :: es => match g.take e with
    | .ok g => g.takeAll es
    | .error p => .error p

/-- What has to be given and is not. -/
def Given.missing (g : Given) (n : CommandName) : List Text :=
  (if g.operand.isNone then [n.operand] else []) ++
  (if n = .analyze ∧ g.catalogues.isEmpty then
    ["-c/--catalogue".toList]
  else [])

def Given.command (g : Given) (n : CommandName) : Command :=
  let operand := g.operand.getD []
  match n with
  | .analyze => .analyze {
      graph := operand
      catalogues := g.catalogues
      format := g.format
      output := g.output
      config := g.config }
  | .check => .check operand
  | .checkCatalogue => .checkCatalogue operand
  | .dot => .dot operand g.output g.title

def readCommand (n : CommandName) (words : List Text) : Except Refusal (Command × List Text) :=
  let refuse (p : Option Problem) : Refusal := match p with
    | some p => .problem n.shape.program p
    | none => .help
  let r := readWords n.shape words
  match Given.takeAll { } r.events with
  | .error p => .error (refuse p)
  | .ok g =>
    match r.problem with
    | some p => .error (refuse (some p))
    | none =>
      if (g.missing n).isEmpty then .ok (g.command n, r.extras)
      else .error (refuse (some (.missing (g.missing n))))

/-- Takes up one argument of the program. The words without a use are collected. -/
def takeTop (i : Invocation × List Text) : Event TopKey → Except Refusal (Invocation × List Text)
  | .switch s _ => match s.key with
    | .help => .error .help
    | .version => .error .version
    | .verbose => .ok ({ i.1 with verbosity := i.1.verbosity + 1 }, i.2)
  | .operand words =>
    let name := words.headD []
    match CommandName.ofWord? name with
    | none => .error (.problem programName
        (.invalidChoice topShape.operand name (CommandName.all.map (·.word))))
    | some n => match readCommand n (words.drop 1) with
      | .error e => .error e
      | .ok (c, extras) => .ok ({ i.1 with command := some c }, i.2 ++ extras)

def takeTopAll (i : Invocation × List Text) :
    List (Event TopKey) → Except Refusal (Invocation × List Text)
  | [] => .ok i
  | e :: es => match takeTop i e with
    | .ok i => takeTopAll i es
    | .error r => .error r

def Invocation.read (words : List Text) : Except Refusal Invocation :=
  let r := readWords topShape words
  match takeTopAll ({ }, []) r.events with
  | .error e => .error e
  | .ok (i, extras) =>
    match r.problem with
    | some p => .error (.problem programName p)
    | none =>
      let extras := r.extras ++ extras
      if extras.isEmpty then .ok i else .error (.problem programName (.unrecognized extras))

/-- What the program is for, and how to call it. -/
def usage : Text := Text.unlines (List.map String.toList [
  "usage: dualflow [-h] [--version] [-v] COMMAND ...",
  "",
  "Correlate pairs of taint flows that cross calls in lockstep.",
  "",
  "options:",
  "  -h, --help       show this help message and exit",
  "  --version        show program's version number and exit",
  "  -v, --verbose    Increase log verbosity (-v INFO, -vv DEBUG).",
  "",
  "commands:",
  "  COMMAND",
  "    analyze        Report correlated flow pairs.",
  "    check          Validate a flow graph.",
  "    check-catalogue",
  "                   Validate a catalogue.",
  "    dot            Render a flow graph as DOT.",
  ""])

namespace Refusal

def code : Refusal → Nat
  | .help => 0
  | .version => 0
  | .problem _ _ => 2

def screen : Refusal → Text
  | .help => usage
  | .version => programName ++ ' ' :: Lockstep.version ++ ['\n']
  | .problem _ _ => []

def advice : Refusal → Text
  | .problem program p => program ++ ": error: ".toList ++ p.message ++ ['\n']
  | _ => []

end Refusal
end Lockstep.CommandLine
