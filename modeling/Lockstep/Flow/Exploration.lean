import Lockstep.Flow.Basic
import Lockstep.Search.Closure
/-!
Building a path graph. The sources are discovered first, each in the empty context; then path nodes
are visited in the order of discovery, and a visit follows the edges of the flow graph as far as the
calling context allows. A barrier is neither entered nor left. In the end only the path nodes that
lead to a sink are kept.
-/

set_option autoImplicit false

namespace Lockstep

/-- What has been discovered: path nodes visited and waiting, and the steps between them. -/
structure Exploration where
  visited : List PathNode
  waiting : List PathNode
  links : List Link
  deriving DecidableEq, Repr

namespace Exploration

def nodes (x : Exploration) : List PathNode := x.visited ++ x.waiting

def discover (tag : FlowTag) (cfg : FlowConfig) (index : Nat) (node : FlowNode)
    (context : CallString) (isSource : Bool) : PathNode :=
  { index, tag, node, context, isSource, isSink := cfg.isSink node }

def start (tag : FlowTag) (cfg : FlowConfig) (depth : Int) (g : FlowGraph) : Exploration where
  visited := []
  waiting := (g.nodes.filter cfg.isSource).mapIdx fun i node =>
    discover tag cfg i node (.empty depth) true
  links := []

/-- The first edge between two path nodes makes their link. -/
def link (x : Exploration) (source target : PathNode) (e : FlowEdge) : Exploration :=
  if x.links.any fun l => l.source == source && l.target == target then x
  else { x with links := x.links ++ [⟨source, target, e⟩] }

/-- Takes a step to a flow node in a context, where a path node may or may not be yet. -/
def reach (tag : FlowTag) (cfg : FlowConfig) (source : PathNode) (e : FlowEdge) (node : FlowNode)
    (context : CallString) (x : Exploration) : Exploration :=
  match x.nodes.find? (·.isAt node.id context.sites) with
  | some target => x.link source target e
  | none =>
    let target := discover tag cfg x.nodes.length node context false
    { x with waiting := x.waiting ++ [target] }.link source target e

/-- Follows one edge from a path node, unless it ends in a barrier or the context forbids it. -/
def follow (tag : FlowTag) (g : FlowGraph) (cfg : FlowConfig) (source : PathNode) (x : Exploration)
    (e : FlowEdge) : Exploration :=
  match g.findNode? e.target with
  | none => x
  | some node =>
    if cfg.isBarrier node then x
    else match source.context.along e with
      | none => x
      | some context => reach tag cfg source e node context x

def expand (tag : FlowTag) (g : FlowGraph) (cfg : FlowConfig) (n : PathNode) (x : Exploration) :
    Exploration :=
  if cfg.isBarrier n.node then x
  else (g.outEdges n.node.id).foldl (follow tag g cfg n) x

/-- Visits the path node that has waited longest. -/
def visit (tag : FlowTag) (g : FlowGraph) (cfg : FlowConfig) (x : Exploration) :
    Option Exploration :=
  match x.waiting with
  | [] => none
  | n :: rest =>
    some (expand tag g cfg n { x with visited := x.visited ++ [n], waiting := rest })

def callSites (g : FlowGraph) : List Json := (g.edges.filter (·.kind == .call)).map (·.site)

/-- A logarithm of more path nodes than there can be: each is a flow node with at most `depth`
call sites. -/
def magnitude (g : FlowGraph) (depth : Int) : Nat :=
  g.nodes.length.log2 + 2 + depth.toNat * ((callSites g).length.log2 + 2)

def complete (tag : FlowTag) (g : FlowGraph) (cfg : FlowConfig) (depth : Int) : Exploration :=
  Search.exhaust (visit tag g cfg) (magnitude g depth) (start tag cfg depth g)

/-- The path nodes that lead to a sink. -/
def alive (x : Exploration) : List PathNode :=
  Search.closure (fun n => (x.links.filter (·.target == n)).map (·.source)) x.nodes.length
    (x.nodes.filter (·.isSink))

/-- Keeps what leads to a sink, in the order of discovery. -/
def prune (tag : FlowTag) (x : Exploration) : PathGraph :=
  let alive := x.alive
  { tag
    explored := x.nodes.length
    nodes := x.nodes.filter alive.contains
    links := x.links.filter fun l => alive.contains l.source && alive.contains l.target }

end Exploration

/-- The path graph of a flow with at most `depth` open calls in a context. -/
def PathGraph.build (tag : FlowTag) (g : FlowGraph) (cfg : FlowConfig) (depth : Int) : PathGraph :=
  (Exploration.complete tag g cfg depth).prune tag

end Lockstep
