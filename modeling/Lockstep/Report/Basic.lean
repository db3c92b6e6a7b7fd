import Lockstep.Correlation.Finding
import Lockstep.Report.Severity
/-!
What is reported: the findings of some rules, each with its name, severity and description. In plain
text a finding is one line with its place and message, and a line for the way of each flow.
-/

set_option autoImplicit false

namespace Lockstep

structure Batch where
  rule : Text := "correlatedFlows".toList
  findings : List Finding
  severity : Severity := .warning
  description : Text := []

inductive ReportFormat where
  | text | json | sarif
  deriving DecidableEq, Repr

namespace ReportFormat

def all : List ReportFormat := [.text, .json, .sarif]

def word : ReportFormat → Text
  | .text => "text".toList
  | .json => "json".toList
  | .sarif => "sarif".toList

def ofWord? (t : Text) : Option ReportFormat := all.find? (·.word == t)

theorem ofWord?_word (f : ReportFormat) : ofWord? f.word = some f := by cases f <;> decide

end ReportFormat

namespace Batch

def total : List Batch → Nat
  | [] => 0
  | b :: bs => b.findings.length + total bs

end Batch

namespace Finding

def wayText (trace : List PathNode) : Text :=
  Text.join " -> ".toList (trace.map (·.node.display))

/-- The three lines of a finding. -/
def plain (f : Finding) (severity : Severity) (rule : Text) : Text :=
  Text.unlines [
    '[' :: f.quadruple.node1.node.location.display ++ "]: (".toList ++ severity.label ++
      ") ".toList ++ f.description ++ " [".toList ++ rule ++ [']'],
    "  flow A: ".toList ++ wayText f.traceA,
    "  flow B: ".toList ++ wayText f.traceB]

end Finding

namespace Batch

/-- Every finding, then how many there are. -/
def plain (bs : List Batch) : Text :=
  (bs.flatMap fun b => b.findings.flatMap fun f => f.plain b.severity b.rule ++ ['\n']) ++
  "\n--- ".toList ++ Text.ofNat (total bs) ++ " finding(s) ---\n".toList

end Batch
end Lockstep
