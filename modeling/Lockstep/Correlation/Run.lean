import Lockstep.Correlation.Finding
import Lockstep.Flow.Settled
import Lockstep.Pair.Projection
/-!
Correlating a graph by a declaration of pairs: the two single flows, their path graphs, and the
quadruples of these. Graphs may hold values that the way there cannot deal with.
-/

set_option autoImplicit false

namespace Lockstep

/-- What keeps a graph from being correlated. -/
inductive Obstacle where
  /-- A pair relation has no answer, or a routine cannot be looked up. -/
  | unsettledPairs
  /-- A barrier question has no answer, or a call site cannot be looked up. -/
  | unsettledFlow (side : Side)
  | misaligned (m : Misaligned)
  deriving DecidableEq, Repr

namespace PairConfig

def tag (side : Side) : FlowTag := ⟨side.word, 0⟩

def flow (pairs : PairConfig) (g : FlowGraph) (depth : Int) (side : Side) : PathGraph :=
  PathGraph.build (tag side) g ((Projection.of pairs g side).config pairs) depth

def settlesFlow (pairs : PairConfig) (g : FlowGraph) (depth : Int) (side : Side) : Bool :=
  let cfg := (Projection.of pairs g side).config pairs
  let x := Exploration.complete (tag side) g cfg depth
  x.isNameable && x.settledBy g (pairs.barrier side)

def checkedFlow (pairs : PairConfig) (g : FlowGraph) (depth : Int) (side : Side) :
    Except Obstacle PathGraph :=
  if !pairs.settles g then .error .unsettledPairs
  else if !pairs.settlesFlow g depth side then .error (.unsettledFlow side)
  else .ok (pairs.flow g depth side)

end PairConfig

def Engine.of (g : FlowGraph) (pairs : PairConfig) (config : CorrelationConfig) : Engine where
  flowA := pairs.flow g config.depth .a
  flowB := pairs.flow g config.depth .b
  pairs
  config

/-- The engine for a graph, if the graph allows it. -/
def Engine.checked (g : FlowGraph) (pairs : PairConfig) (config : CorrelationConfig) :
    Except Obstacle Engine := do
  let flowA ← pairs.checkedFlow g config.depth .a
  let flowB ← pairs.checkedFlow g config.depth .b
  return { flowA, flowB, pairs, config }

def Engine.checkedSolve (e : Engine) : Except Obstacle Correlation :=
  e.solve.mapError .misaligned

def correlate (g : FlowGraph) (pairs : PairConfig) (config : CorrelationConfig) :
    Except Obstacle Correlation := do
  (← Engine.checked g pairs config).checkedSolve

end Lockstep
