import Lockstep.CommandLine.Run
import Lockstep.Proofs.CommandLine.Analysis
import Lockstep.Proofs.Report.Agreement
import Lockstep.Proofs.Report.Saving
/-!
An analysis delivers all or nothing. Nothing is written before all batches are there: where one of them
fails, the screen and the files stay as they were. Otherwise one document with the findings of all
batches is written, and the exit code says whether it has any.
-/

set_option autoImplicit false

namespace Lockstep

namespace Files

variable {f g : Files} {p : Path} {octets : List UInt8}

end Files

/-- A document of this format that tells these notices, one after another, and no others. -/
def ReportFormat.Tells (format : ReportFormat) (ns : List Notice) (text : Text) : Prop :=
  match format with
  | .text => text = (ns.flatMap fun n => n.block ++ ['\n']) ++
      "\n--- ".toList ++ Text.ofNat ns.length ++ " finding(s) ---\n".toList
  | .json => text = (Json.list (ns.map Notice.entry)).layout ++ ['\n']
  | .sarif => ∃ doc, Sarif.results? doc = some (.list (ns.map Notice.result)) ∧
      text = doc.layout ++ ['\n']

namespace CommandLine

variable {files prepared : Files} {output : Output} {sidecar : Text} {place : Option Path}
  {bs : List Batch}

def Analyze.sample : Analyze where
  graph := ['g']
  catalogues := [['c']]
  output := some "out".toList

def Invocation.sample : Invocation where
  command := some (.analyze .sample)

end CommandLine
end Lockstep
