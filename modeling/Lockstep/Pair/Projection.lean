import Lockstep.Flow.Basic
import Lockstep.Pair.Basic
/-!
The single flows of a declaration. Pairs are looked for inside of each routine; the first members
of the source pairs are the sources of flow A and the second members those of flow B, and so with
the sinks.
-/

set_option autoImplicit false

namespace Lockstep

def FlowGraph.routinePairs (g : FlowGraph) : List (FlowNode × FlowNode) :=
  g.routines.flatMap fun r =>
    let here := g.nodesIn r
    here.flatMap fun a => here.map fun b => (a, b)

structure Projection where
  side : Side
  sources : List Text
  sinks : List Text
  deriving DecidableEq, Repr

namespace Projection

def member : Side → FlowNode × FlowNode → FlowNode
  | .a, p => p.1
  | .b, p => p.2

def membersOf (g : FlowGraph) (side : Side) (relation : FlowNode → FlowNode → Bool) : List Text :=
  ((g.routinePairs.filter fun p => relation p.1 p.2).map fun p => (member side p).id).eraseDups

def of (pairs : PairConfig) (g : FlowGraph) (side : Side) : Projection where
  side
  sources := membersOf g side pairs.isSourcePair
  sinks := membersOf g side pairs.isSinkPair

def config (p : Projection) (pairs : PairConfig) : FlowConfig where
  isSource n := p.sources.contains n.id
  isSink n := p.sinks.contains n.id
  isBarrier := pairs.isBarrier p.side

def display (p : Projection) : Text :=
  "FlowProjection(".toList ++ p.side.word ++ ", sources=".toList ++ Text.ofNat p.sources.length ++
  ", sinks=".toList ++ Text.ofNat p.sinks.length ++ [')']

end Projection

/-- Both relations have an answer for all that projecting asks them, and every routine can be
looked up. -/
def PairConfig.settles (pairs : PairConfig) (g : FlowGraph) : Bool :=
  g.routines.all (·.file.isScalar) &&
  g.routinePairs.all fun p => (pairs.sourcePair p.1 p.2).isSome && (pairs.sinkPair p.1 p.2).isSome

end Lockstep
