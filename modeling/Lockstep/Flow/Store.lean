import Lockstep.Flow.Exploration
import Lockstep.Graph.Store
/-!
The tables a path graph is kept in while it is built. A path node is found by its place. The steps
out of the path nodes and the steps into them stand in two tables, which are written one after the
other. The flags of a path node are set after it is made, and in the end each table gives up what
leads to no sink.
-/

set_option autoImplicit false

namespace Lockstep

/-- A path node without its flags. -/
structure Occurrence where
  index : Nat
  tag : FlowTag
  node : FlowNode
  context : CallString
  deriving DecidableEq, Repr

def Occurrence.key (o : Occurrence) : Text × List Json := (o.node.id, o.context.sites)

/-- `sourceFlags` and `sinkFlags` are the path nodes whose flag is set. -/
structure PathStore where
  tag : FlowTag
  interned : Table (Text × List Json) Occurrence
  leaving : Table Occurrence (Table Occurrence FlowEdge)
  entering : Table Occurrence (Table Occurrence FlowEdge)
  sourceFlags : List Occurrence
  sinkFlags : List Occurrence
  deriving DecidableEq, Repr

namespace PathStore

inductive Fault where
  | graph (e : GraphError)
  /-- A list or an object cannot name anything. -/
  | notName (v : Json)
  /-- A path node that has no row in a table. -/
  | noRow (o : Occurrence)
  deriving DecidableEq, Repr

def empty (tag : FlowTag) : PathStore := ⟨tag, [], [], [], [], []⟩

def nodes (s : PathStore) : List Occurrence := s.interned.values
def sources (s : PathStore) : List Occurrence := s.nodes.filter s.sourceFlags.contains
def sinks (s : PathStore) : List Occurrence := s.nodes.filter s.sinkFlags.contains
def successors (s : PathStore) (o : Occurrence) : List Occurrence := Table.keys (s.leaving.row o)
def predecessors (s : PathStore) (o : Occurrence) : List Occurrence := Table.keys (s.entering.row o)
def edge? (s : PathStore) (o p : Occurrence) : Option FlowEdge := Table.get? (s.leaving.row o) p
def contains (s : PathStore) (o : Occurrence) : Bool := (s.leaving.get? o).isSome

def lookup? (s : PathStore) (id : Text) (sites : List Json) : Option Occurrence :=
  s.interned.get? (id, sites)

def occurrences (s : PathStore) (id : Text) : List Occurrence :=
  Table.values (s.interned.filter (·.1.1 == id))

/-- The path node with its flags. -/
def view (s : PathStore) (o : Occurrence) : PathNode :=
  ⟨o.index, o.tag, o.node, o.context, s.sourceFlags.contains o, s.sinkFlags.contains o⟩

/-- The path graph that the tables hold. -/
def graph (s : PathStore) (explored : Nat) : PathGraph where
  tag := s.tag
  explored := explored
  nodes := s.nodes.map s.view
  links := s.leaving.flatMap fun r => r.2.map fun t => ⟨s.view r.1, s.view t.1, t.2⟩

/-! ### Writing -/

def add (s : PathStore) (o : Occurrence) : PathStore :=
  { s with
    interned := s.interned.put o.key o
    leaving := s.leaving.put o []
    entering := s.entering.put o [] }

def named (sites : List Json) : Except Fault Unit :=
  match sites.find? (!·.isScalar) with
  | some v => .error (.notName v)
  | none => .ok ()

/-- The path node of a place, and whether it had to be made. -/
def intern (s : PathStore) (node : FlowNode) (context : CallString) :
    Except Fault (Occurrence × Bool × PathStore) := do
  named context.sites
  match s.interned.get? (node.id, context.sites) with
  | some o => return (o, false, s)
  | none =>
    let o : Occurrence := ⟨s.interned.length, s.tag, node, context⟩
    return (o, true, s.add o)

def rowOf (t : Table Occurrence (Table Occurrence FlowEdge)) (o : Occurrence) :
    Except Fault (Table Occurrence FlowEdge) :=
  match t.get? o with
  | some row => .ok row
  | none => .error (.noRow o)

/-- Writes an edge into both tables, unless the step is known. -/
def link (s : PathStore) (source target : Occurrence) (e : FlowEdge) : Except Fault PathStore := do
  let out ← rowOf s.leaving source
  if (out.get? target).isSome then return s
  let s := { s with leaving := s.leaving.put source (out.put target e) }
  let into ← rowOf s.entering target
  return { s with entering := s.entering.put target (into.put source e) }

/-- The path nodes that lead to a sink. -/
def alive (s : PathStore) : List Occurrence :=
  Search.closure s.predecessors s.interned.length s.sinks

def keepRows (kept : List Occurrence) (t : Table Occurrence (Table Occurrence FlowEdge)) :
    Table Occurrence (Table Occurrence FlowEdge) :=
  (t.filter fun r => kept.contains r.1).map fun r => (r.1, r.2.filter fun t => kept.contains t.1)

def prune (s : PathStore) : PathStore :=
  let alive := s.alive
  { s with
    interned := s.interned.filter fun r => alive.contains r.2
    leaving := keepRows alive s.leaving
    entering := keepRows alive s.entering }

/-! ### Building -/

/-- A store in the making, and the path nodes that wait for their visit. -/
structure Builder where
  store : PathStore
  waiting : List Occurrence

namespace Builder

/-- A source is met in the empty context. -/
def seed (cfg : FlowConfig) (depth : Int) (b : Builder) (node : FlowNode) : Except Fault Builder :=
  if cfg.isSource node then do
    let (o, _, s) ← b.store.intern node (.empty depth)
    return ⟨{ s with sourceFlags := s.sourceFlags ++ [o] }, b.waiting ++ [o]⟩
  else .ok b

def reach (source : Occurrence) (e : FlowEdge) (node : FlowNode) (context : CallString)
    (b : Builder) : Except Fault Builder := do
  let (target, isNew, s) ← b.store.intern node context
  let s ← s.link source target e
  return ⟨s, if isNew then b.waiting ++ [target] else b.waiting⟩

/-- Follows one edge from a path node, unless it ends in a barrier or the context forbids it. -/
def follow (g : FlowGraph) (cfg : FlowConfig) (source : Occurrence) (b : Builder) (e : FlowEdge) :
    Except Fault Builder :=
  match g.node e.target with
  | .error f => .error (.graph f)
  | .ok node =>
    if cfg.isBarrier node then .ok b
    else match source.context.along e with
      | none => .ok b
      | some context => reach source e node context b

/-- Takes a path node from those that wait and sets its flag. -/
def take (cfg : FlowConfig) (b : Builder) (o : Occurrence) (rest : List Occurrence) : Builder where
  store := if cfg.isSink o.node then { b.store with sinkFlags := b.store.sinkFlags ++ [o] }
    else b.store
  waiting := rest

def expand (g : FlowGraph) (cfg : FlowConfig) (o : Occurrence) (b : Builder) :
    Except Fault Builder :=
  if cfg.isBarrier o.node then .ok b else (g.outEdges o.node.id).foldlM (follow g cfg o) b

/-- Visits the path node that has waited longest. -/
def visit (g : FlowGraph) (cfg : FlowConfig) (b : Builder) : Option (Except Fault Builder) :=
  match b.waiting with
  | [] => none
  | o :: rest => some (expand g cfg o (b.take cfg o rest))

/-- One round, if nothing has failed so far. -/
def round (g : FlowGraph) (cfg : FlowConfig) : Except Fault Builder → Option (Except Fault Builder)
  | .ok b => b.visit g cfg
  | .error _ => none

def start (tag : FlowTag) (g : FlowGraph) (cfg : FlowConfig) (depth : Int) : Except Fault Builder :=
  g.nodes.foldlM (seed cfg depth) ⟨.empty tag, []⟩

def complete (tag : FlowTag) (g : FlowGraph) (cfg : FlowConfig) (depth : Int) :
    Except Fault Builder :=
  Search.exhaust (round g cfg) (Exploration.magnitude g depth) (start tag g cfg depth)

end Builder

/-- The store of a flow with at most `depth` open calls in a context. -/
def build (tag : FlowTag) (g : FlowGraph) (cfg : FlowConfig) (depth : Int) : Except Fault PathStore :=
  (Builder.complete tag g cfg depth).map fun b => b.store.prune

end PathStore
end Lockstep
