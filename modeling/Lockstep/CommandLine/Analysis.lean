import Lockstep.CommandLine.Command
import Lockstep.CommandLine.Loading
import Lockstep.Log.Stages
import Lockstep.Report.Basic
/-!
The analysis of a graph by catalogues. All that can go wrong with the graph, a catalogue or a
correlation goes wrong here, where nothing is written.
-/

set_option autoImplicit false

namespace Lockstep.CommandLine

def countLine (c : Catalogue) (r : Correlation) (found : List Finding) : LogLine where
  level := .info
  source := .program
  message := "catalogue ".toList ++ c.name ++ ": ".toList ++ Text.ofNat r.records.length ++
    " quadruples, ".toList ++ Text.ofNat found.length ++ " finding(s)".toList
  timed := true

def truncationLine (c : Catalogue) : LogLine where
  level := .warning
  source := .program
  message := "catalogue ".toList ++ c.name ++ ": exploration was truncated".toList

def batchOf (g : FlowGraph) (config : CorrelationConfig) (c : Catalogue) : Logged Batch :=
  match correlate g c.config config with
  | .error o => do
    .lines (o.logLines g c.config config)
    throw (.failed (.obstacle o))
  | .ok r => do
    .lines (r.logLines config)
    match r.findings with
    | .error f => throw (.failed (.template f))
    | .ok findings =>
      .line (countLine c r findings)
      .lines (if r.truncated then [truncationLine c] else [])
      return { rule := c.name, findings, severity := c.severity, description := c.description }

/-- Loads everything, then takes the catalogues in turn. -/
def Analyze.batches (a : Analyze) (files : Files) : Logged (List Batch) := do
  let g ← loadGraph files a.graph
  let catalogues ← a.catalogues.mapM (loadCatalogue files)
  catalogues.mapM (batchOf g a.config)

end Lockstep.CommandLine
