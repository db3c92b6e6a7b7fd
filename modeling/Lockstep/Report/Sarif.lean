import Lockstep.Report.Basic
import Lockstep.Json.Writer
/-!
Findings as a SARIF log: the rules that have findings, and a result for each finding with the places
of its ends and the ways of both flows.
-/

set_option autoImplicit false

namespace Lockstep

def version : Text := "0.1.0".toList

namespace Sarif

structure Rule where
  id : Text
  description : Text
  deriving DecidableEq, Repr

structure Log where
  rules : List Rule := []
  results : List Json := []

def toolName : Text := "dualflow".toList

def schema : Text :=
  ("https://raw.githubusercontent.com/oasis-tcs/sarif-spec/master/" ++
    "Schemata/sarif-schema-2.1.0.json").toList

def text (t : Json) : Json := .object [("text".toList, t)]

/-- A place has a line if one is known, and a message if there is something to say. -/
def location (n : PathNode) (message : Json) : List (Text × Json) :=
  let uri := n.node.sourceFile.orElse n.node.routine.name
  let region : List (Text × Json) :=
    if n.node.line = 0 then []
    else [("region".toList, .object [("startLine".toList, .int n.node.line)])]
  [("physicalLocation".toList,
      .object (("artifactLocation".toList, .object [("uri".toList, uri)]) :: region)),
    ("logicalLocations".toList, .list [.object [
      ("name".toList, n.node.routine.name), ("kind".toList, .text "function".toList)]])] ++
  (if message.holds then [("message".toList, text message)] else [])

def threadFlow (trace : List PathNode) : Json :=
  .object [("locations".toList, .list (trace.map fun n =>
    .object [("location".toList, .object (location n n.node.caption))]))]

def related (id : Int) (n : PathNode) (role : String) : Json :=
  .object (location n (.text role.toList) ++ [("id".toList, .int id)])

def result (f : Finding) (rule : Text) (severity : Severity) : Json :=
  .object [
    ("ruleId".toList, .text rule),
    ("level".toList, .text severity.label),
    ("message".toList, text (.text f.description)),
    ("locations".toList, .list [.object (location f.quadruple.node1 .null)]),
    ("relatedLocations".toList, .list [
      related 0 f.quadruple.source1 "source 1",
      related 1 f.quadruple.source2 "source 2",
      related 2 f.quadruple.node2 "sink 2"]),
    ("codeFlows".toList, .list [.object [
      ("threadFlows".toList, .list [threadFlow f.traceA, threadFlow f.traceB])]]),
    ("properties".toList, .object [("jointSteps".toList, .int f.jointSteps)])]

namespace Log

/-- The first finding of a rule gives the rule its description. -/
def addRule (log : Log) (id description : Text) : Log :=
  if log.rules.any (·.id == id) then log
  else { log with rules := log.rules ++ [⟨id, if description.isEmpty then id else description⟩] }

def add (b : Batch) (log : Log) (f : Finding) : Log :=
  let log := log.addRule b.rule b.description
  { log with results := log.results ++ [result f b.rule b.severity] }

def ofBatches (bs : List Batch) : Log :=
  bs.foldl (fun log b => b.findings.foldl (add b) log) { }

def ruleJson (r : Rule) : Json :=
  .object [
    ("id".toList, .text r.id),
    ("shortDescription".toList, text (.text r.description)),
    ("properties".toList, .object [("kind".toList, .text "path-problem".toList)])]

def toJson (log : Log) (tool : Text) (toolVersion : Text) : Json :=
  .object [
    ("$schema".toList, .text schema),
    ("version".toList, .text "2.1.0".toList),
    ("runs".toList, .list [.object [
      ("tool".toList, .object [("driver".toList, .object [
        ("name".toList, .text tool),
        ("version".toList, .text toolVersion),
        ("rules".toList, .list (log.rules.map ruleJson))])]),
      ("results".toList, .list log.results)]])]

end Log
end Sarif

namespace Batch

def sarif (bs : List Batch) : Json :=
  (Sarif.Log.ofBatches bs).toJson Sarif.toolName version

end Batch
end Lockstep
