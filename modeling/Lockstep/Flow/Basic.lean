import Lockstep.Flow.CallString
import Lockstep.Graph.Basic
/-!
Path graphs. A path node is a flow node in one calling context; a path graph holds those on the way
from a source to a sink, and the steps between them. Nodes of different path graphs differ, even if
both graphs have one name.
-/

set_option autoImplicit false

namespace Lockstep

/-- What one flow starts from, ends in and cannot pass. -/
structure FlowConfig where
  isSource : FlowNode → Bool
  isSink : FlowNode → Bool
  isBarrier : FlowNode → Bool

def FlowConfig.ofIds (sources sinks barriers : List Text) : FlowConfig where
  isSource n := sources.contains n.id
  isSink n := sinks.contains n.id
  isBarrier n := barriers.contains n.id

/-- The name of a path graph. The serial tells graphs of one name apart. -/
structure FlowTag where
  name : Text
  serial : Nat := 0
  deriving DecidableEq, Repr

/-- The index is the place in the order of discovery, and the only one of its graph. -/
structure PathNode where
  index : Nat
  tag : FlowTag
  node : FlowNode
  context : CallString
  isSource : Bool
  isSink : Bool
  deriving DecidableEq, Repr

namespace PathNode

def routine (n : PathNode) : Routine := n.node.routine

/-- It is over that flow node, in a context of those sites. -/
def isAt (n : PathNode) (id : Text) (sites : List Json) : Bool :=
  n.node.id == id && n.context.sites == sites

/-- Only a context that can be shown allows the node to be. -/
def display? (n : PathNode) : Option Text :=
  n.context.display?.map fun context =>
    "PathNode[".toList ++ n.tag.name ++ "](".toList ++ n.node.display ++ ", ".toList ++ context ++
    [')']

end PathNode

structure Link where
  source : PathNode
  target : PathNode
  edge : FlowEdge
  deriving DecidableEq, Repr

/-- `explored` is the number of path nodes that were discovered, kept or not. -/
structure PathGraph where
  tag : FlowTag
  explored : Nat
  nodes : List PathNode
  links : List Link
  deriving DecidableEq, Repr

namespace PathGraph

def sources (p : PathGraph) : List PathNode := p.nodes.filter (·.isSource)
def sinks (p : PathGraph) : List PathNode := p.nodes.filter (·.isSink)

def successors (p : PathGraph) (n : PathNode) : List PathNode :=
  (p.links.filter (·.source == n)).map (·.target)

def predecessors (p : PathGraph) (n : PathNode) : List PathNode :=
  (p.links.filter (·.target == n)).map (·.source)

def edge? (p : PathGraph) (n m : PathNode) : Option FlowEdge :=
  (p.links.find? fun l => l.source == n && l.target == m).map (·.edge)

def lookup? (p : PathGraph) (id : Text) (sites : List Json) : Option PathNode :=
  p.nodes.find? (·.isAt id sites)

def occurrences (p : PathGraph) (id : Text) : List PathNode := p.nodes.filter (·.node.id == id)

def contains (p : PathGraph) (n : PathNode) : Bool := p.nodes.contains n

def noStep? (p : PathGraph) (n m : PathNode) : Option Text := do
  let source ← n.display?
  let target ← m.display?
  return "no step ".toList ++ source ++ " -> ".toList ++ target ++ " in ".toList ++ p.tag.name

def display (p : PathGraph) : Text :=
  "PathGraph(".toList ++ Text.quoted p.tag.name ++ ", nodes=".toList ++
  Text.ofNat p.nodes.length ++ ", sources=".toList ++ Text.ofNat p.sources.length ++
  ", sinks=".toList ++ Text.ofNat p.sinks.length ++ [')']

end PathGraph
end Lockstep
