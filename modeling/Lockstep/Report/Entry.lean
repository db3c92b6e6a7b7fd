import Lockstep.Json.Writer
import Lockstep.Report.Basic
/-!
Findings as JSON: one list, with an entry for each finding that names its rule and severity.
-/

set_option autoImplicit false

namespace Lockstep

namespace PathNode

def stepJson (n : PathNode) : Json :=
  .object [
    ("node".toList, .text n.node.id),
    ("label".toList, n.node.label),
    ("routine".toList, n.node.routine.name),
    ("context".toList, .list n.context.shown),
    ("file".toList, n.node.sourceFile),
    ("line".toList, .int n.node.line)]

end PathNode

namespace Finding

def members (f : Finding) : List (Text × Json) := [
  ("message".toList, .text f.description),
  ("source1".toList, f.quadruple.source1.stepJson),
  ("source2".toList, f.quadruple.source2.stepJson),
  ("sink1".toList, f.quadruple.node1.stepJson),
  ("sink2".toList, f.quadruple.node2.stepJson),
  ("trace_a".toList, .list (f.traceA.map (·.stepJson))),
  ("trace_b".toList, .list (f.traceB.map (·.stepJson))),
  ("joint_steps".toList, .int f.jointSteps)]

def toJson (f : Finding) : Json := .object f.members

end Finding

namespace Batch

def entries (b : Batch) : List Json :=
  b.findings.map fun f => .object (f.members ++ [
    ("rule".toList, .text b.rule),
    ("severity".toList, .text b.severity.label)])

def toJson (bs : List Batch) : Json := .list (bs.flatMap entries)

end Batch
end Lockstep
