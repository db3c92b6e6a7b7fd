import Lockstep.Graph.Basic
/-!
Flow graphs drawn with Graphviz: one cluster for each routine with its nodes, then the edges, each
drawn in the way of its kind. Every text stands in a quoted string, where a double quote is written
after a backslash. Only texts can be drawn.
-/

set_option autoImplicit false

namespace Lockstep.Dot

inductive Fault where
  /-- A name or label that is no text. -/
  | notText
  /-- A routine whose file cannot name anything. -/
  | notName
  deriving DecidableEq, Repr

def escape (t : Text) : Text := Text.replaceChar '"' ['\\', '"'] t

/-- The content of a quoted string up to its closing quote, and what follows it. -/
def unescape : Text → Option (Text × Text)
  | [] => none
  | '"' :: cs => some ([], cs)
  | '\\' :: '"' :: cs => (unescape cs).map fun r => ('"' :: r.1, r.2)
  | c :: cs => (unescape cs).map fun r => (c :: r.1, r.2)

def quote (t : Text) : Text := '"' :: escape t ++ ['"']

def textOf (v : Json) : Except Fault Text :=
  match v.asText? with
  | some t => .ok t
  | none => .error .notText

def nodeLine (n : FlowNode) : Except Fault Text := do
  let caption ← textOf n.caption
  return "    ".toList ++ quote n.id ++ " [label=".toList ++ quote caption ++ "];".toList

def edgeStyle : EdgeKind → Text
  | .internal => []
  | .call => ", style=dashed, color=blue".toList
  | .return => ", style=dashed, color=darkgreen".toList
  | .jump => ", style=dotted, color=red".toList

def edgeLine (e : FlowEdge) : Text :=
  "  ".toList ++ quote e.source ++ " -> ".toList ++ quote e.target ++ " [label=".toList ++
  quote e.caption ++ edgeStyle e.kind ++ "];".toList

def clusterLines (g : FlowGraph) (index : Nat) (r : Routine) : Except Fault (List Text) := do
  let name ← textOf r.name
  if !r.file.isScalar then throw .notName
  let body ← (g.nodesIn r).mapM nodeLine
  return ("  subgraph cluster_".toList ++ Text.ofNat index ++ " \x7b".toList) ::
    ("    label=".toList ++ quote name ++ [';']) :: body ++ ["  \x7d".toList]

def clusters (g : FlowGraph) (index : Nat) : List Routine → Except Fault (List Text)
  | [] => .ok []
  | r :: rs => do
    let first ← clusterLines g index r
    let more ← clusters g (index + 1) rs
    return first ++ more

def titleLines : Option Text → List Text
  | none => []
  | some title => if title.isEmpty then [] else ["  label=".toList ++ quote title ++ [';']]

def render (g : FlowGraph) (title : Option Text) : Except Fault Text := do
  let body ← clusters g 0 g.routines
  return Text.unlines (
    ["digraph FlowGraph \x7b".toList, "  rankdir=TB;".toList] ++ titleLines title ++
    ["  node [shape=box, fontname=\"Helvetica\", fontsize=10];".toList] ++ body ++
    g.edges.map edgeLine ++ [['\x7d']])

end Lockstep.Dot
