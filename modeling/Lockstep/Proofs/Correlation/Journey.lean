import Lockstep.Proofs.Correlation.Crossing
import Lockstep.Proofs.Correlation.PairWalk
/-!
Journeys of two flows. A journey begins at a joint source, takes so many steps that the policy
permits, and ends where both flows can still come to sinks. It says nothing of path nodes and of the
order in which they are met, only of the graph and the declaration.
-/

set_option autoImplicit false

namespace Lockstep

theorem CallString.Same.along_sites {c d : CallString} (h : c.Same d) (e : FlowEdge) :
    (c.along e).map (·.sites) = (d.along e).map (·.sites) := by
  cases hc : c.along e with
  | none =>
    cases hd : d.along e with
    | none => rfl
    | some d' =>
      obtain ⟨c', hc', -⟩ := h.symm.along hd
      simp [hc] at hc'
  | some c' =>
    obtain ⟨d', hd', hsame⟩ := h.along hc
    simp [hd', hsame.1]

/-- The edge takes one position to another: its node to the other's and its context to the
other's. -/
def FlowEdge.leads (e : FlowEdge) (s t : Position) : Bool :=
  e.source == s.node.id && e.target == t.node.id &&
  (s.context.along e).any (·.sites == t.context.sites)

def FlowGraph.between (g : FlowGraph) (s t : Position) : List FlowEdge :=
  g.edges.filter (·.leads s t)

theorem FlowGraph.crossings_eq_between {g : FlowGraph} {n m : PathNode} {s t : Position}
    (hn : n.At s) (hm : m.At t) : g.crossings n m = g.between s t := by
  have hany (c : CallString) (e : FlowEdge) (sites : List Json) :
      (c.along e).any (·.sites == sites) = ((c.along e).map (·.sites)).any (· == sites) := by
    rw [Option.any_map]
  unfold crossings between
  congr 1
  funext e
  rw [FlowEdge.connects, FlowEdge.leads, hany, hany, hn.2.along_sites, hn.1, hm.1, hm.2.1]

/-- Under the policy of call sites both flows leave a routine by steps whose first edges agree. -/
def SyncPolicy.Permits (policy : SyncPolicy) (g : FlowGraph) (p p' : Position × Position) : Prop :=
  policy = .callSite → p'.1.node.routine ≠ p.1.node.routine →
    ∃ d₁ ∈ (g.between p.1 p'.1).head?, ∃ d₂ ∈ (g.between p.2 p'.2).head?, d₁.Agrees d₂

theorem SyncPolicy.permits_routine (g : FlowGraph) (p p' : Position × Position) :
    SyncPolicy.routine.Permits g p p' := fun h => absurd h (by decide)

/-- So many steps of two flows, each of which the policy permits. -/
inductive PairRun (g : FlowGraph) (pairs : PairConfig) (policy : SyncPolicy)
    (p : Position × Position) : Nat → Position × Position → Prop
  | start : PairRun g pairs policy p 0 p
  | step {n : Nat} {q r : Position × Position} : PairRun g pairs policy p n q →
      PairStep g pairs q r → policy.Permits g q r → PairRun g pairs policy p (n + 1) r

structure Journey (g : FlowGraph) (pairs : PairConfig) (config : CorrelationConfig) (n : Nat)
    (a b : FlowNode) (s t : Position) : Prop where
  source : JointSource g pairs a b
  run : PairRun g pairs config.policy (.initial config.depth a, .initial config.depth b) n (s, t)
  escapesA : Escapes g (pairs.single g .a) s
  escapesB : Escapes g (pairs.single g .b) t

variable {g : FlowGraph} {pairs : PairConfig} {config : CorrelationConfig} {policy : SyncPolicy}
  {n : Nat} {a b : FlowNode} {s t : Position} {p q : Position × Position}

theorem PairRun.walk (h : PairRun g pairs policy p n q) : PairWalk g pairs p q := by
  induction h with
  | start => exact .refl
  | step _ hstep _ ih => exact ih.tail hstep

theorem PairRun.aligned (h : PairRun g pairs policy p n q)
    (hp : p.1.node.routine = p.2.node.routine) : q.1.node.routine = q.2.node.routine :=
  h.walk.aligned hp

/-- By routines every step is permitted. -/
theorem PairWalk.exists_run (h : PairWalk g pairs p q) : ∃ n, PairRun g pairs .routine p n q := by
  induction h with
  | refl => exact ⟨0, .start⟩
  | tail _ hstep ih =>
    obtain ⟨n, hrun⟩ := ih
    exact ⟨n + 1, hrun.step hstep (SyncPolicy.permits_routine g _ _)⟩

theorem Journey.mem_nodes (h : Journey g pairs config n a b s t) :
    s.node ∈ g.nodes ∧ t.node ∈ g.nodes :=
  ⟨(h.run.walk.walk .a).mem_nodes h.source.memA, (h.run.walk.walk .b).mem_nodes h.source.memB⟩

theorem Journey.aligned (h : Journey g pairs config n a b s t) :
    s.node.routine = t.node.routine := h.run.aligned h.source.aligned

end Lockstep
