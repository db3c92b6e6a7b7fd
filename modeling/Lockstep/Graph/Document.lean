import Lockstep.Graph.Basic
import Lockstep.Json.Reader
import Lockstep.Text.Utf8
/-!
Flow graphs as JSON documents: `toJson` writes a graph, `ofJson` reads one. Members are read in a
fixed order and the first that cannot be used is the answer. Routines that only nodes name are
registered when the first of those nodes is read.
-/

set_option autoImplicit false

namespace Lockstep.FlowGraph

/-- What makes a value unusable where it stands. -/
inductive Misfit where
  | notIterable (v : Json)
  | notMembers (v : Json)
  | notName (v : Json)
  | notNodeKind (v : Json)
  | notEdgeKind (v : Json)
  | notNumber (v : Json)
  | notLiteral (t : Text)
  | notANumber
  deriving DecidableEq, Repr

inductive DocumentError where
  | notObject
  | missing (field : Text)
  | malformed (m : Misfit)
  | graph (e : GraphError)
  | encoding (file : Text) (f : Text.Utf8.Fault)
  | syntaxError (file source : Text) (f : Json.Fault)
  /-- An infinite number where a whole one is wanted. -/
  | infinite
  deriving DecidableEq, Repr

def Misfit.message : Misfit → Text
  | .notIterable v => '\'' :: v.kindName ++ "' object is not iterable".toList
  | .notMembers (.text _) => "string indices must be integers, not 'str'".toList
  | .notMembers (.list _) => "list indices must be integers or slices, not str".toList
  | .notMembers v => '\'' :: v.kindName ++ "' object is not subscriptable".toList
  | .notName v => "unhashable type: '".toList ++ v.kindName ++ ['\'']
  | .notNodeKind v => v.quoted ++ " is not a valid NodeKind".toList
  | .notEdgeKind v => v.quoted ++ " is not a valid EdgeKind".toList
  | .notNumber v =>
    "int() argument must be a string, a bytes-like object or a real number, not '".toList ++
    v.kindName ++ ['\'']
  | .notLiteral t => "invalid literal for int() with base 10: ".toList ++ Text.quoted t
  | .notANumber => "cannot convert float NaN to integer".toList

def DocumentError.message : DocumentError → Text
  | .notObject => "flow graph document must be a JSON object".toList
  | .missing field => "missing required field ".toList ++ Text.quoted field
  | .malformed m => "malformed flow graph: ".toList ++ m.message
  | .graph e => e.message
  | .encoding file f => file ++ ": not valid UTF-8: ".toList ++ f.message
  | .syntaxError file source f => file ++ ": invalid JSON: ".toList ++ f.message source
  | .infinite => "cannot convert float infinity to integer".toList

/-- Whether an error is reported as a mistake in the document. -/
def DocumentError.isReported : DocumentError → Bool
  | .infinite => false
  | _ => true

abbrev Checked := Except DocumentError

/-- The elements of a value that is gone through one by one: of a text its characters, of an
object its names. -/
def elements : Json → Checked (List Json)
  | .list xs => .ok xs
  | .text t => .ok (t.map fun c => .text [c])
  | .object ms => .ok (ms.map fun m => .text m.1)
  | v => .error (.malformed (.notIterable v))

def section? (name : Text) (ms : List (Text × Json)) : Checked (List Json) :=
  match Json.member? name ms with
  | none => .ok []
  | some v => elements v

/-- The members of an element. -/
def membersOf : Json → Checked (List (Text × Json))
  | .object ms => .ok ms
  | v => .error (.malformed (.notMembers v))

def required (name : Text) (ms : List (Text × Json)) : Checked Json :=
  match Json.member? name ms with
  | some v => .ok v
  | none => .error (.missing name)

def optional (name : Text) (default : Json) (ms : List (Text × Json)) : Json :=
  (Json.member? name ms).getD default

/-- A whole number: fractions are cut off and literals read. -/
def wholeNumber : Json → Checked Int
  | .int i => .ok i
  | .bool b => .ok (if b then 1 else 0)
  | .float .nan => .error (.malformed .notANumber)
  | .float f => match f.trunc? with
    | some i => .ok i
    | none => .error .infinite
  | .text t => match Literal.int? t with
    | some i => .ok i
    | none => .error (.malformed (.notLiteral t))
  | v => .error (.malformed (.notNumber v))

def nodeKindOf (v : Json) : Checked NodeKind :=
  match v.asText?.bind NodeKind.ofWord? with
  | some k => .ok k
  | none => .error (.malformed (.notNodeKind v))

def edgeKindOf (v : Json) : Checked EdgeKind :=
  match v.asText?.bind EdgeKind.ofWord? with
  | some k => .ok k
  | none => .error (.malformed (.notEdgeKind v))

def graphStep {α : Type} : Except GraphError α → Checked α
  | .ok a => .ok a
  | .error e => .error (.graph e)

/-- A value that can name a thing. -/
def nameable (v : Json) : Checked Unit :=
  if v.isScalar then .ok () else .error (.malformed (.notName v))

def readRoutine (g : FlowGraph) (v : Json) : Checked FlowGraph := do
  let ms ← membersOf v
  let name ← required "name".toList ms
  let file := optional "file".toList (.text []) ms
  nameable name
  let (_, g) ← graphStep (g.addRoutine ⟨name, file⟩)
  return g

def readNode (g : FlowGraph) (v : Json) : Checked FlowGraph := do
  let ms ← membersOf v
  let name ← required "routine".toList ms
  nameable name
  let (routine, g) ← graphStep (match g.findRoutine? name with
    | some r => .ok (r, g)
    | none => g.addRoutine { name })
  let id ← required "id".toList ms
  let kind ← nodeKindOf (optional "kind".toList (.text NodeKind.expr.word) ms)
  let argIndex ← wholeNumber (optional "arg_index".toList (.int (-1)) ms)
  let line ← wholeNumber (optional "line".toList (.int 0) ms)
  let g ← graphStep (g.addNode {
    id := id.display
    routine
    label := optional "label".toList (.text []) ms
    kind
    callSite := optional "call_site".toList .null ms
    callee := optional "callee".toList .null ms
    argIndex
    file := optional "file".toList (.text []) ms
    line })
  nameable routine.file
  return g

def readEdge (g : FlowGraph) (v : Json) : Checked FlowGraph := do
  let ms ← membersOf v
  let source ← required "src".toList ms
  let target ← required "dst".toList ms
  let kind ← edgeKindOf (optional "kind".toList (.text EdgeKind.internal.word) ms)
  graphStep (g.addEdge {
    source := source.display
    target := target.display
    kind
    callSite := optional "call_site".toList .null ms })

def readAll (step : FlowGraph → Json → Checked FlowGraph) : FlowGraph → List Json → Checked FlowGraph
  | g, [] => .ok g
  | g, v :: vs => match step g v with
    | .ok g => readAll step g vs
    | .error e => .error e

def ofJson : Json → Checked FlowGraph
  | .object ms => do
    let g ← readAll readRoutine empty (← section? "routines".toList ms)
    let g ← readAll readNode g (← section? "nodes".toList ms)
    readAll readEdge g (← section? "edges".toList ms)
  | _ => .error .notObject

def ofText (file source : Text) : Checked FlowGraph :=
  match Json.read source with
  | .error f => .error (.syntaxError file source f)
  | .ok v => ofJson v

def ofOctets (file : Text) (octets : List UInt8) : Checked FlowGraph :=
  match Text.Utf8.decode octets with
  | .error f => .error (.encoding file f)
  | .ok t => ofText file (Text.unifyNewlines t)

def routineJson (r : Routine) : Json :=
  .object [("name".toList, r.name), ("file".toList, r.file)]

def nodeJson (n : FlowNode) : Json :=
  .object [
    ("id".toList, .text n.id),
    ("routine".toList, n.routine.name),
    ("label".toList, n.label),
    ("kind".toList, .text n.kind.word),
    ("call_site".toList, n.callSite),
    ("callee".toList, n.callee),
    ("arg_index".toList, .int n.argIndex),
    ("file".toList, n.file),
    ("line".toList, .int n.line)]

def edgeJson (e : FlowEdge) : Json :=
  .object [
    ("src".toList, .text e.source),
    ("dst".toList, .text e.target),
    ("kind".toList, .text e.kind.word),
    ("call_site".toList, e.callSite)]

def toJson (g : FlowGraph) : Json :=
  .object [
    ("routines".toList, .list (g.routines.map routineJson)),
    ("nodes".toList, .list (g.nodes.map nodeJson)),
    ("edges".toList, .list (g.edges.map edgeJson))]

end Lockstep.FlowGraph
