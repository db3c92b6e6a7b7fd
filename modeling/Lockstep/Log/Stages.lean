import Lockstep.Correlation.Run
import Lockstep.Log.Basic
/-!
What the log says of a correlation: the size of each path graph, the seeds, and what came out.
-/

set_option autoImplicit false

namespace Lockstep

namespace PathGraph

def pruneLine (p : PathGraph) : LogLine where
  level := .debug
  source := .flow
  message := p.tag.name ++ ": pruned ".toList ++ Text.ofNat (p.explored - p.nodes.length) ++
    " path nodes that reach no sink".toList

def sizeLine (p : PathGraph) : LogLine where
  level := .info
  source := .flow
  message := "path graph ".toList ++ p.tag.name ++ ": ".toList ++ Text.ofNat p.explored ++
    " path nodes explored, ".toList ++ Text.ofNat p.nodes.length ++
    " on source-sink paths".toList

def logLines (p : PathGraph) : List LogLine := [p.pruneLine, p.sizeLine]

end PathGraph

def Quadruple.seedLine (q : Quadruple) : LogLine where
  level := .debug
  source := .correlation
  message := "seed ".toList ++ q.node1.node.display ++ " / ".toList ++ q.node2.node.display

def Engine.logLines (e : Engine) : List LogLine :=
  e.flowA.logLines ++ e.flowB.logLines ++ e.triedSeeds.map (·.seedLine)

namespace Correlation

def boundLine (c : Correlation) (most : Int) : LogLine where
  level := .warning
  source := .correlation
  message := "correlation stopped after ".toList ++ Text.ofNat c.records.length ++
    " quadruples (max_quadruples=".toList ++ Text.ofInt most ++ [')']

def resultLine (c : Correlation) : LogLine where
  level := .info
  source := .correlation
  message := c.display

def logLines (c : Correlation) (config : CorrelationConfig) : List LogLine :=
  Engine.logLines ⟨c.flowA, c.flowB, c.pairs, config⟩ ++
  (if c.truncated then [c.boundLine config.most] else []) ++ [c.resultLine]

end Correlation

/-- The lines up to an obstacle. -/
def Obstacle.logLines (g : FlowGraph) (pairs : PairConfig) (config : CorrelationConfig) :
    Obstacle → List LogLine
  | .unsettledPairs => []
  | .unsettledFlow .a => []
  | .unsettledFlow .b => (pairs.flow g config.depth .a).logLines
  | .misaligned _ => (Engine.of g pairs config).logLines

end Lockstep
