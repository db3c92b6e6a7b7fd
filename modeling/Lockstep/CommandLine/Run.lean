import Lockstep.CommandLine.Analysis
import Lockstep.CommandLine.Output
import Lockstep.Graph.Dot
/-!
Running a command on files. The exit code is 1 if there are findings and 2 if something is wrong; an
analysis that stops before its report is written leaves the screen and all files as they were.
-/

set_option autoImplicit false

namespace Lockstep.CommandLine

inductive Ending where
  | code (n : Nat)
  | failed (f : Failure)
  deriving Repr

/-- What a command leaves behind. `advice` is shown before the log. -/
structure Outcome where
  files : Files
  screen : Text := []
  advice : Text := []
  lines : List LogLine := []
  ending : Ending
  deriving Repr

def errorLine (message : Text) : LogLine := ⟨.error, .program, message, false⟩

namespace Outcome

def stopped (s : Stop) (files : Files) (screen : Text) (lines : List LogLine) : Outcome :=
  match s with
  | .reported message =>
    { files, screen, lines := lines ++ [errorLine message], ending := .code 2 }
  | .failed f => { files, screen, lines, ending := .failed f }

def log (o : Outcome) (verbosity : Nat) : List LogLine := o.lines.filter (·.isShown verbosity)

end Outcome

def Analyze.deliver (a : Analyze) (sidecar : Text) (files : Files) (lines : List LogLine)
    (batches : List Batch) : Outcome :=
  match Output.prepare files a.output with
  | .error s => .stopped s files [] lines
  | .ok (output, files) =>
    match writeReports a.format sidecar batches files with
    | (text, .error e) => .stopped (.ofFile e) (output.close text files) (output.shown text) lines
    | (text, .ok reported) =>
      { files := output.close text reported.files
        screen := output.shown text
        lines := lines ++ reported.lines
        ending := .code (if reported.total = 0 then 0 else 1) }

def Analyze.run (a : Analyze) (sidecar : Text) (files : Files) : Outcome :=
  match (a.batches files).outcome with
  | (.error s, lines) => .stopped s files [] lines
  | (.ok batches, lines) => a.deliver sidecar files lines batches

def graphSummary (written : Text) (g : FlowGraph) : Text :=
  written ++ ": ok (".toList ++ Text.ofNat g.routines.length ++ " routines, ".toList ++
  Text.ofNat g.nodes.length ++ " nodes, ".toList ++ Text.ofNat g.edges.length ++
  " edges)\n".toList

def catalogueSummary (written : Text) (c : Catalogue) : Text :=
  written ++ ": ok (catalogue ".toList ++ c.name ++ ": ".toList ++
  Text.ofNat c.sourceRules.length ++ " source pair(s), ".toList ++
  Text.ofNat c.sinkRules.length ++ " sink pair(s), ".toList ++
  Text.ofNat c.barriers.length ++ " barrier(s))\n".toList

def showText (files : Files) (x : Logged Text) : Outcome :=
  match x.outcome with
  | (.error s, lines) => .stopped s files [] lines
  | (.ok screen, lines) => { files, screen, lines, ending := .code 0 }

def runCheck (graph : Text) (files : Files) : Outcome :=
  showText files do return graphSummary graph (← loadGraph files graph)

def runCheckCatalogue (catalogue : Text) (files : Files) : Outcome :=
  showText files do
    let p ← locateCatalogue files catalogue
    return catalogueSummary catalogue (← readCatalogue files p)

/-- Draws a graph. An output file that was emptied stays so if the graph cannot be drawn. -/
def runDot (graph : Text) (output title : Option Text) (files : Files) : Outcome :=
  match (loadGraph files graph).outcome with
  | (.error s, lines) => .stopped s files [] lines
  | (.ok g, lines) => match Output.prepare files output with
    | .error s => .stopped s files [] lines
    | .ok (output, files) => match Dot.render g title with
      | .error f => .stopped (.failed (.drawing f)) files [] lines
      | .ok drawing =>
        let text := drawing ++ ['\n']
        { files := output.close text files
          screen := output.shown text
          lines
          ending := .code 0 }

/-- Runs a command. `sidecar` names the file beside a report, if it is not empty. -/
def Command.run (sidecar : Text) (files : Files) : Command → Outcome
  | .analyze a => a.run sidecar files
  | .check graph => runCheck graph files
  | .checkCatalogue catalogue => runCheckCatalogue catalogue files
  | .dot graph output title => runDot graph output title files

def Invocation.run (i : Invocation) (sidecar : Text) (files : Files) : Outcome :=
  match i.command with
  | none => { files, advice := usage, ending := .code 2 }
  | some c => c.run sidecar files

end Lockstep.CommandLine
