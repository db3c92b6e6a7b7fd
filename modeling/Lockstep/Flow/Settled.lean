import Lockstep.Flow.Exploration
/-!
When a path graph can be built at all: every call site in a context has to be a value that can name
something, and the barrier question needs an answer wherever it is asked.
-/

set_option autoImplicit false

namespace Lockstep.Exploration

/-- Every context that was met can be looked up. -/
def isNameable (x : Exploration) : Bool :=
  x.nodes.all fun n => n.context.sites.all Json.isScalar

/-- The question is asked of every path node and, unless that is a barrier, of the ends of its
edges. -/
def settledBy (g : FlowGraph) (barrier : FlowNode → Option Bool) (x : Exploration) : Bool :=
  x.nodes.all fun n => match barrier n.node with
    | none => false
    | some true => true
    | some false => (g.outEdges n.node.id).all fun e => match g.findNode? e.target with
      | none => true
      | some m => (barrier m).isSome

end Lockstep.Exploration

namespace Lockstep

/-- The path graph, unless a call site is in the way. -/
def PathGraph.build? (tag : FlowTag) (g : FlowGraph) (cfg : FlowConfig) (depth : Int) :
    Option PathGraph :=
  let x := Exploration.complete tag g cfg depth
  if x.isNameable then some (x.prune tag) else none

end Lockstep
