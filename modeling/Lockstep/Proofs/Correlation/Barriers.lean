import Lockstep.Proofs.Correlation.Traces
import Lockstep.Proofs.Flow.Exactness
/-!
Barriers are never passed. No step of a path graph leads out of a barrier or into one, so that a path
node over a barrier stands alone: it is there only as a source that is a sink as well. A trace with a
step in it has no barrier, and one without may be such a path node.
-/

set_option autoImplicit false

namespace Lockstep

/-- A path node where a flow ends as soon as it begins. -/
structure PathNode.Alone (p : PathGraph) (depth : Int) (n : PathNode) : Prop where
  source : n.isSource = true
  sink : n.isSink = true
  context : n.context = .empty depth
  predecessors : p.predecessors n = []
  successors : p.successors n = []

/-- A trace without barriers, or one that is nothing but a barrier, a source and a sink in one. -/
def PassesNone (barrier : FlowNode → Bool) (trace : List PathNode) : Prop :=
  (∀ n ∈ trace, barrier n.node = false) ∨
  ∃ n, trace = [n] ∧ barrier n.node = true ∧ n.isSource = true ∧ n.isSink = true

variable {g : FlowGraph} {tag : FlowTag} {cfg : FlowConfig} {depth : Int} {n m : PathNode}
  {s t : Position}

theorem FlowStep.free (h : FlowStep g cfg s t) :
    cfg.isBarrier s.node = false ∧ cfg.isBarrier t.node = false := by
  obtain ⟨e, he⟩ := h
  exact ⟨he.leaves, he.enters⟩

/-- Only where it begins can a walk be at a barrier. -/
theorem Arrives.initial_of_barrier (h : Arrives g cfg depth t) (hb : cfg.isBarrier t.node = true) :
    cfg.isSource t.node = true ∧ t = .initial depth t.node := by
  obtain ⟨a, -, hsource, hw⟩ := h
  cases hw with
  | refl => exact ⟨hsource, rfl⟩
  | tail _ hst => simp [hst.free.2] at hb

/-- Only where it ends can a walk be at a barrier. -/
theorem Escapes.sink_of_barrier (h : Escapes g cfg s) (hb : cfg.isBarrier s.node = true) :
    cfg.isSink s.node = true := by
  obtain ⟨t, hw, hsink⟩ := h
  cases hw using Relation.ReflTransGen.head_induction_on with
  | refl => exact hsink
  | head hst _ _ => simp [hst.free.1] at hb

namespace PathGraph

theorem free_of_successor (hg : g.Valid) (h : m ∈ (build tag g cfg depth).successors n) :
    cfg.isBarrier n.node = false ∧ cfg.isBarrier m.node = false := by
  obtain ⟨-, -, e, -, -, -, hleaves, henters, -⟩ := (successor_iff_edge hg).mp h
  exact ⟨hleaves, henters⟩

theorem alone_of_barrier (hg : g.Valid) (hn : n ∈ (build tag g cfg depth).nodes)
    (hb : cfg.isBarrier n.node = true) : n.Alone (build tag g cfg depth) depth := by
  have harrived := arrived_build hg hn
  obtain ⟨hsource, hinitial⟩ := harrived.arrives.initial_of_barrier hb
  have hcontext : n.context = .empty depth := congrArg Position.context hinitial
  refine ⟨harrived.source.mpr ⟨hsource, hcontext ▸ rfl⟩, ?_, hcontext, ?_, ?_⟩
  · rw [harrived.sink]
    exact ((mem_nodes_build hg).mp hn).2.sink_of_barrier hb
  · refine List.eq_nil_iff_forall_not_mem.mpr fun m hm => ?_
    simp [(free_of_successor hg (mem_predecessors.mp hm)).2] at hb
  · refine List.eq_nil_iff_forall_not_mem.mpr fun m hm => ?_
    simp [(free_of_successor hg hm).1] at hb

/-- Along a step and whatever comes after it there is no barrier. -/
theorem free_of_steps (hg : g.Valid) {rest : List PathNode}
    (h : (n :: m :: rest).IsChain fun n m => m ∈ (build tag g cfg depth).successors n) :
    ∀ k ∈ n :: m :: rest, cfg.isBarrier k.node = false := by
  induction rest generalizing n m with
  | nil =>
    obtain ⟨hn, hm⟩ := free_of_successor hg (List.isChain_pair.mp h)
    simp [hn, hm]
  | cons k rest ih =>
    obtain ⟨hstep, hrest⟩ := List.isChain_cons_cons.mp h
    exact List.forall_mem_cons.mpr ⟨(free_of_successor hg hstep).1, ih hrest⟩

end PathGraph

theorem Traced.passesNone {side : Side} {chain : List Record} {last : PathNode}
    {trace : List PathNode} (hg : g.Valid)
    (h : Traced (.build tag g cfg depth) side chain n last trace)
    (hn : n ∈ (PathGraph.build tag g cfg depth).nodes) : PassesNone cfg.isBarrier trace := by
  obtain ⟨hhead, -, hsteps, -⟩ := h
  match trace with
  | [] => simp at hhead
  | [k] =>
    obtain rfl : k = n := by simpa using hhead
    by_cases hb : cfg.isBarrier k.node = true
    · have halone := PathGraph.alone_of_barrier hg hn hb
      exact Or.inr ⟨k, rfl, hb, halone.source, halone.sink⟩
    · exact Or.inl (by simpa using hb)
  | k :: m :: rest => exact Or.inl (PathGraph.free_of_steps hg hsteps)

/-- The traces of a finding pass no barriers of their flows, and in every path graph a path node over
a barrier stands alone. -/
theorem correlate_passesNone (hg : g.Built) (pairs : PairConfig) (config : CorrelationConfig) :
    (g.Nameable → pairs.Answers g →
      ∃ c fs, correlate g pairs config = .ok c ∧ c.findings = .ok fs) ∧
    (∀ c fs, correlate g pairs config = .ok c → c.findings = .ok fs → ∀ f ∈ fs,
      PassesNone (pairs.isBarrier .a) f.traceA ∧ PassesNone (pairs.isBarrier .b) f.traceB) ∧
    ∀ (tag : FlowTag) (cfg : FlowConfig) (depth : Int), ∀ n ∈ (PathGraph.build tag g cfg depth).nodes,
      cfg.isBarrier n.node = true → n.Alone (.build tag g cfg depth) depth := by
  refine ⟨fun hname hpairs => hpairs.exists_findings hg.valid hname config,
    fun c fs hc hfs f hf => ?_, fun _ _ _ _ hn hb => PathGraph.alone_of_barrier hg.valid hn hb⟩
  obtain rfl := eq_outcome_of_correlate hc
  obtain ⟨hmem, -, hA, hB, -⟩ := Correlation.of_mem_findings hfs hf
  have hchain := Engine.outcome_lineage hmem
  have hseed := hchain.isSeed
  rw [hA, hB]
  exact ⟨(hchain.traced .a).passesNone hg.valid (List.mem_filter.mp hseed.sourceA).1,
    (hchain.traced .b).passesNone hg.valid (List.mem_filter.mp hseed.sourceB).1⟩

/-- Flow A may not pass `k`, so that nothing comes there from `s`; but `k` is a source too. -/
theorem correlate_passesNone_sample :
    let pairs := PairTable.config {
      sources := [(['s'], ['t']), (['k'], ['l'])], sinks := [(['k'], ['l'])], barriersA := [['k']] }
    let config : CorrelationConfig := { policy := .callSite, depth := 2, most := 20 }
    let flow := pairs.flow .sample 2 .a
    FlowGraph.sample.Built ∧
    (∃ c fs, correlate .sample pairs config = .ok c ∧ c.findings = .ok fs ∧
      (∃ f ∈ fs, ∃ n ∈ f.traceA, pairs.isBarrier .a n.node = true) ∧
      ∀ f ∈ fs, PassesNone (pairs.isBarrier .a) f.traceA ∧
        PassesNone (pairs.isBarrier .b) f.traceB) ∧
    ∃ n ∈ flow.nodes, pairs.isBarrier .a n.node = true ∧ n.Alone flow 2 := by
  intro pairs config flow
  have hname : FlowGraph.sample.Nameable := ⟨by decide, by decide⟩
  obtain ⟨hexists, hpasses, halone⟩ := correlate_passesNone FlowGraph.built_sample pairs config
  obtain ⟨c, fs, hc, hfs⟩ := hexists hname (PairTable.answers _ _)
  have hbarrier : ∃ f ∈ c.findings.toOption.getD [],
      ∃ n ∈ f.traceA, pairs.isBarrier .a n.node = true := by
    rw [eq_outcome_of_correlate hc]
    decide
  rw [hfs] at hbarrier
  obtain ⟨n, hn, hb⟩ : ∃ n ∈ flow.nodes, pairs.isBarrier .a n.node = true := by decide
  exact ⟨FlowGraph.built_sample, ⟨c, fs, hc, hfs, hbarrier, hpasses c fs hc hfs⟩,
    n, hn, hb, halone _ _ _ n hn hb⟩

end Lockstep
