import Lockstep.Correlation.Basic
import Lockstep.Pair.Basic
/-!
The rules by which quadruples are derived. A seed is a pair of sources in one routine. Each flow
may advance alone while it stays in the other one's routine; both may go over to another routine
together. Partners are looked up by their routine.
-/

set_option autoImplicit false

namespace Lockstep

structure Engine where
  flowA : PathGraph
  flowB : PathGraph
  pairs : PairConfig
  config : CorrelationConfig

namespace Engine

/-- Path nodes by routine, in their order. -/
abbrev Buckets := List (Routine × List PathNode)

def Buckets.add (n : PathNode) : Buckets → Buckets
  | [] => [(n.routine, [n])]
  | (r, ns) :: rest => if r = n.routine then (r, ns ++ [n]) :: rest else (r, ns) :: add n rest

def Buckets.ofList (ns : List PathNode) : Buckets := ns.foldl (fun b n => b.add n) []

def Buckets.get (b : Buckets) (r : Routine) : List PathNode := (b.lookup r).getD []

def seeds (e : Engine) : List Quadruple :=
  let partners := Buckets.ofList e.flowB.sources
  e.flowA.sources.flatMap fun a =>
    ((partners.get a.routine).filter fun b => e.pairs.isSourcePair a.node b.node).map fun b =>
      ⟨a, b, a, b⟩

def advanceA (e : Engine) (q : Quadruple) : List Quadruple :=
  ((e.flowA.successors q.node1).filter (·.routine == q.node2.routine)).map fun n =>
    { q with node1 := n }

def advanceB (e : Engine) (q : Quadruple) : List Quadruple :=
  ((e.flowB.successors q.node2).filter (·.routine == q.node1.routine)).map fun n =>
    { q with node2 := n }

/-- Both flows take the same kind of step through the same call site. -/
def sameCrossing (e : Engine) (q : Quadruple) (n₁ n₂ : PathNode) : Bool :=
  match e.flowA.edge? q.node1 n₁, e.flowB.edge? q.node2 n₂ with
  | some e₁, some e₂ =>
    e₁.kind == e₂.kind &&
    (e₁.kind == .jump || (e₁.callSite != .null && sameSite e₁.site e₂.site))
  | _, _ => false

def allows (e : Engine) (q : Quadruple) (n₁ n₂ : PathNode) : Bool :=
  match e.config.policy with
  | .routine => true
  | .callSite => e.sameCrossing q n₁ n₂

def joint (e : Engine) (q : Quadruple) : List Quadruple :=
  let here := q.node1.routine
  let targets := Buckets.ofList ((e.flowB.successors q.node2).filter (·.routine != here))
  ((e.flowA.successors q.node1).filter (·.routine != here)).flatMap fun n₁ =>
    ((targets.get n₁.routine).filter (e.allows q n₁)).map fun n₂ =>
      { q with node1 := n₁, node2 := n₂ }

/-- All that a quadruple leads to, where flow A advances in a given way. -/
def expandWith (e : Engine) (advance : Quadruple → List Quadruple) (q : Quadruple) :
    List (Quadruple × StepKind) :=
  (advance q).map (·, .advanceA) ++ (e.advanceB q).map (·, .advanceB) ++
  (e.joint q).map (·, .joint)

end Engine
end Lockstep
