import Lockstep.Graph.Node
import Lockstep.Template.Failure
/-!
Declarations of pairs. A declaration says which two nodes are a joint source and which a joint
sink, and where either flow ends. It may have no answer for a node, if it would have to search in a
label that is no text.
-/

set_option autoImplicit false

namespace Lockstep

inductive Side where
  | a | b
  deriving DecidableEq, Repr

def Side.word : Side → Text
  | .a => ['A']
  | .b => ['B']

def Side.ofWord? (t : Text) : Option Side := [Side.a, .b].find? (·.word == t)

theorem Side.ofWord?_word (s : Side) : ofWord? s.word = some s := by cases s <;> decide

structure PairConfig where
  sourcePair : FlowNode → FlowNode → Option Bool
  sinkPair : FlowNode → FlowNode → Option Bool
  barrier : Side → FlowNode → Option Bool
  /-- The text for two sources and two sinks. -/
  describe : FlowNode → FlowNode → FlowNode → FlowNode → Except Template.Failure Text

namespace PairConfig

def isSourcePair (p : PairConfig) (a b : FlowNode) : Bool := p.sourcePair a b == some true
def isSinkPair (p : PairConfig) (a b : FlowNode) : Bool := p.sinkPair a b == some true
def isBarrier (p : PairConfig) (s : Side) (n : FlowNode) : Bool := p.barrier s n == some true

end PairConfig

def plainDescription (source1 source2 sink1 sink2 : FlowNode) : Text :=
  "correlated flows ".toList ++ source1.display ++ " -> ".toList ++ sink1.display ++
  " and ".toList ++ source2.display ++ " -> ".toList ++ sink2.display

end Lockstep
