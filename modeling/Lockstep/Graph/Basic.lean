import Lockstep.Graph.Node
/-!
Flow graphs. A graph is built by adding routines, nodes and edges; an addition that would break
its rules is refused and changes nothing.
-/

set_option autoImplicit false

namespace Lockstep

inductive GraphError where
  | conflictingRoutine (name : Json)
  | duplicateNode (id : Text)
  | unknownNode (id : Text)
  | unknownRoutine (name : Json)
  | missingCallSite (kind : EdgeKind) (source target : Text)
  | crossesRoutines (source target : Text) (leaves enters : Json)
  deriving DecidableEq, Repr

def GraphError.message : GraphError → Text
  | .conflictingRoutine name => "conflicting definitions of routine ".toList ++ name.quoted
  | .duplicateNode id => "duplicate node id ".toList ++ Text.quoted id
  | .unknownNode id => "unknown node id ".toList ++ Text.quoted id
  | .unknownRoutine name => "unknown routine ".toList ++ name.quoted
  | .missingCallSite kind source target =>
    kind.word ++ " edge ".toList ++ source ++ " -> ".toList ++ target ++
    " needs a call site".toList
  | .crossesRoutines source target leaves enters =>
    "local edge ".toList ++ source ++ " -> ".toList ++ target ++ " crosses routines (".toList ++
    leaves.display ++ " -> ".toList ++ enters.display ++ [')']

structure FlowGraph where
  routines : List Routine
  nodes : List FlowNode
  edges : List FlowEdge
  deriving DecidableEq, Repr

namespace FlowGraph

def empty : FlowGraph := ⟨[], [], []⟩

def findRoutine? (g : FlowGraph) (name : Json) : Option Routine :=
  g.routines.find? (·.name.key == name.key)

def findNode? (g : FlowGraph) (id : Text) : Option FlowNode := g.nodes.find? (·.id == id)

def node (g : FlowGraph) (id : Text) : Except GraphError FlowNode :=
  match g.findNode? id with
  | some n => .ok n
  | none => .error (.unknownNode id)

def routine (g : FlowGraph) (name : Json) : Except GraphError Routine :=
  match g.findRoutine? name with
  | some r => .ok r
  | none => .error (.unknownRoutine name)

def contains (g : FlowGraph) (id : Text) : Bool := (g.findNode? id).isSome

def nodesIn (g : FlowGraph) (r : Routine) : List FlowNode := g.nodes.filter (·.routine == r)
def outEdges (g : FlowGraph) (id : Text) : List FlowEdge := g.edges.filter (·.source == id)
def inEdges (g : FlowGraph) (id : Text) : List FlowEdge := g.edges.filter (·.target == id)

/-- Registers a routine, unless it is known; the registered one comes back. -/
def addRoutine (g : FlowGraph) (r : Routine) : Except GraphError (Routine × FlowGraph) :=
  match g.findRoutine? r.name with
  | some known =>
    if known.agrees r then .ok (known, g) else .error (.conflictingRoutine r.name)
  | none => .ok (r, { g with routines := g.routines ++ [r] })

/-- Adds a node to its routine, which is registered if it is not known. -/
def addNode (g : FlowGraph) (n : FlowNode) : Except GraphError FlowGraph :=
  if g.contains n.id then .error (.duplicateNode n.id)
  else match g.addRoutine n.routine with
    | .error e => .error e
    | .ok (r, g) => .ok { g with nodes := g.nodes ++ [{ n with routine := r }] }

def addEdge (g : FlowGraph) (e : FlowEdge) : Except GraphError FlowGraph :=
  match g.node e.source with
  | .error err => .error err
  | .ok s =>
    match g.node e.target with
    | .error err => .error err
    | .ok t =>
      if e.kind.needsSite && !e.callSite.holds then
        .error (.missingCallSite e.kind e.source e.target)
      else if e.kind = .internal ∧ s.routine ≠ t.routine then
        .error (.crossesRoutines e.source e.target s.routine.name t.routine.name)
      else .ok { g with edges := g.edges ++ [e] }

def display (g : FlowGraph) : Text :=
  "FlowGraph(routines=".toList ++ Text.ofNat g.routines.length ++ ", nodes=".toList ++
  Text.ofNat g.nodes.length ++ ", edges=".toList ++ Text.ofNat g.edges.length ++ [')']

end FlowGraph
end Lockstep
