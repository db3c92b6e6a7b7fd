import Lockstep.Proofs.Correlation.Outcome
import Lockstep.Proofs.Flow.Agreement
import Lockstep.Proofs.Flow.Relisting
/-!
Declarations that agree inside of routines. A relation of pairs is asked when the single flows are
projected, when seeds are matched and when findings are listed, and each time about two nodes of the
graph that lie in one routine. So what it says of nodes in two routines, or of anything that is not in
the graph, makes no difference to a correlation.
-/

set_option autoImplicit false

namespace Lockstep

/-- Both declarations say the same of any two nodes in one routine of the graph, and of where a flow
ends and how a finding is described. -/
structure PairConfig.AgreeOn (g : FlowGraph) (pairs pairs' : PairConfig) : Prop where
  source : ∀ a ∈ g.nodes, ∀ b ∈ g.nodes, a.routine = b.routine →
    pairs'.sourcePair a b = pairs.sourcePair a b
  sink : ∀ x ∈ g.nodes, ∀ y ∈ g.nodes, x.routine = y.routine →
    pairs'.sinkPair x y = pairs.sinkPair x y
  barrier : ∀ side, ∀ n ∈ g.nodes, pairs'.barrier side n = pairs.barrier side n
  describe : ∀ a ∈ g.nodes, ∀ b ∈ g.nodes, ∀ x ∈ g.nodes, ∀ y ∈ g.nodes,
    pairs'.describe a b x y = pairs.describe a b x y

/-- The same path graphs, asked about by another declaration. -/
def Engine.under (e : Engine) (pairs : PairConfig) : Engine := { e with pairs }

/-- The same records, asked about by another declaration. -/
def Correlation.under (c : Correlation) (pairs : PairConfig) : Correlation := { c with pairs }

/-- All that two correlations show is the same: their path graphs, what they recorded in which order
and from where, and what they list. -/
structure Correlation.SameResult (c c' : Correlation) : Prop where
  flowA : c'.flowA = c.flowA
  flowB : c'.flowB = c.flowB
  records : c'.records = c.records
  truncated : c'.truncated = c.truncated
  findings : c'.findings = c.findings

variable {g : FlowGraph} {pairs pairs' : PairConfig} {config : CorrelationConfig} {side : Side}
  {e : Engine} {c : Correlation} {q : Quadruple}

/-- The rules ask a declaration for seeds only. -/
theorem Engine.outcome_under (hseeds : (e.under pairs).seeds = e.seeds) :
    (e.under pairs).outcome = e.outcome.under pairs := by
  have hstart : (e.under pairs).start = e.start := by
    rw [start, hseeds]
    rfl
  have hrun : (e.under pairs).runWith (e.under pairs).advanceA = e.runWith e.advanceA := by
    rw [runWith, hstart]
    rfl
  rw [outcome, hrun]
  rfl

theorem Correlation.findings_under
    (hsink : ∀ q ∈ c.quadruples,
      pairs.isSinkPair q.node1.node q.node2.node = c.pairs.isSinkPair q.node1.node q.node2.node)
    (hdescribe : ∀ q ∈ c.quadruples,
      pairs.describe q.source1.node q.source2.node q.node1.node q.node2.node =
        c.pairs.describe q.source1.node q.source2.node q.node1.node q.node2.node) :
    (c.under pairs).findings = c.findings := by
  have hfilter : c.quadruples.filter (c.under pairs).isFinding = c.quadruples.filter c.isFinding :=
    List.filter_congr hsink
  have hlisted : (c.under pairs).findings =
      (c.quadruples.filter c.isFinding).mapM ((c.under pairs).findingOf c.records.reverse) := by
    rw [← hfilter]
    rfl
  rw [hlisted]
  refine mapM_congr fun q hq => ?_
  have hsame := hdescribe q (List.mem_filter.mp hq).1
  simp only [findingOf, under, hsame]

/-- What is recorded lies in the graph, and both flows are in one routine. -/
theorem Engine.outcome_inside (hg : g.Valid) (hq : q ∈ (of g pairs config).outcome.quadruples) :
    (q.source1.node ∈ g.nodes ∧ q.source2.node ∈ g.nodes) ∧
    (q.node1.node ∈ g.nodes ∧ q.node2.node ∈ g.nodes) ∧
    q.node1.node.routine = q.node2.node.routine := by
  have hlineage := outcome_lineage hq
  obtain ⟨hsources, hnodes⟩ := nodes_of_reached hg hlineage.reached
  have hline : q.node1.routine = q.node2.routine := by
    simpa [Quadruple.isAligned] using hlineage.isAligned
  exact ⟨hsources, hnodes, hline⟩

namespace PairConfig.AgreeOn

variable (h : pairs.AgreeOn g pairs')
include h

theorem isSourcePair {a b : FlowNode} (ha : a ∈ g.nodes) (hb : b ∈ g.nodes)
    (hr : a.routine = b.routine) : pairs'.isSourcePair a b = pairs.isSourcePair a b := by
  rw [PairConfig.isSourcePair, h.source a ha b hb hr, PairConfig.isSourcePair]

theorem isSinkPair {x y : FlowNode} (hx : x ∈ g.nodes) (hy : y ∈ g.nodes)
    (hr : x.routine = y.routine) : pairs'.isSinkPair x y = pairs.isSinkPair x y := by
  rw [PairConfig.isSinkPair, h.sink x hx y hy hr, PairConfig.isSinkPair]

theorem projection (side : Side) : Projection.of pairs' g side = Projection.of pairs g side := by
  have hmembers {relation relation' : FlowNode → FlowNode → Bool}
      (heq : ∀ p ∈ g.routinePairs, relation' p.1 p.2 = relation p.1 p.2) :
      Projection.membersOf g side relation' = Projection.membersOf g side relation := by
    unfold Projection.membersOf
    rw [List.filter_congr heq]
  simp only [Projection.of, Projection.mk.injEq, true_and]
  refine ⟨hmembers fun p hp => ?_, hmembers fun p hp => ?_⟩
  · obtain ⟨ha, hb, hr⟩ := FlowGraph.of_mem_routinePairs hp
    exact h.isSourcePair ha hb hr
  · obtain ⟨ha, hb, hr⟩ := FlowGraph.of_mem_routinePairs hp
    exact h.isSinkPair ha hb hr

theorem single (side : Side) : (pairs.single g side).AgreeOn g (pairs'.single g side) := by
  unfold PairConfig.single
  rw [h.projection]
  refine ⟨fun _ _ => rfl, fun _ _ => rfl, fun n hn => ?_⟩
  simp only [Projection.config, PairConfig.isBarrier, h.barrier _ n hn]

theorem settles : pairs'.settles g = pairs.settles g := by
  rw [Bool.eq_iff_iff]
  simp only [PairConfig.settles, Bool.and_eq_true, List.all_eq_true]
  refine and_congr_right fun _ => forall₂_congr fun p hp => ?_
  obtain ⟨ha, hb, hr⟩ := FlowGraph.of_mem_routinePairs hp
  rw [h.source _ ha _ hb hr, h.sink _ ha _ hb hr]

variable (hg : g.Valid)
include hg

theorem settlesFlow (depth : Int) (side : Side) :
    pairs'.settlesFlow g depth side = pairs.settlesFlow g depth side := by
  have hcomplete : Exploration.complete (tag side) g (pairs'.single g side) depth =
      Exploration.complete (tag side) g (pairs.single g side) depth :=
    Exploration.complete_agree hg (h.single side)
  have hasked (n : FlowNode) : (∀ e ∈ g.edges, e.source = n.id → ∀ m ∈ g.nodes, m.id = e.target →
        (pairs'.barrier side m).isSome = true) ↔
      ∀ e ∈ g.edges, e.source = n.id → ∀ m ∈ g.nodes, m.id = e.target →
        (pairs.barrier side m).isSome = true := by
    refine forall₃_congr fun e _ _ => forall₂_congr fun m hm => ?_
    rw [h.barrier side m hm]
  simp only [PairConfig.single] at hcomplete
  simp only [PairConfig.settlesFlow, hcomplete]
  rw [Bool.eq_iff_iff]
  simp only [Bool.and_eq_true, Exploration.settledBy_iff hg, hasked]
  refine and_congr_right fun _ => forall₂_congr fun n hn => ?_
  rw [h.barrier side _ (Exploration.Explored.node_mem (Exploration.complete_settled hg) hn)]

theorem engine (config : CorrelationConfig) :
    Engine.of g pairs' config = (Engine.of g pairs config).under pairs' := by
  have hflow (side : Side) : pairs'.flow g config.depth side = pairs.flow g config.depth side :=
    PathGraph.build_agree hg (h.single side)
  simp only [Engine.of, Engine.under, hflow]

theorem seeds (config : CorrelationConfig) :
    ((Engine.of g pairs config).under pairs').seeds = (Engine.of g pairs config).seeds := by
  simp only [Engine.seeds, Engine.Buckets.get_ofList]
  refine List.flatMap_congr fun a ha => congrArg _ (List.filter_congr fun b hb => ?_)
  simp only [List.mem_filter, beq_iff_eq] at hb
  exact h.isSourcePair (Engine.source_at hg ha).1 (Engine.source_at hg hb.1).1 hb.2.symm

theorem outcome (config : CorrelationConfig) :
    (Engine.of g pairs' config).outcome = (Engine.of g pairs config).outcome.under pairs' := by
  rw [h.engine hg, Engine.outcome_under (h.seeds hg config)]

theorem sameResult (config : CorrelationConfig) :
    (Engine.of g pairs config).outcome.SameResult (Engine.of g pairs' config).outcome := by
  rw [h.outcome hg]
  refine ⟨rfl, rfl, rfl, rfl, Correlation.findings_under (fun q hq => ?_) fun q hq => ?_⟩
  · obtain ⟨-, ⟨h₁, h₂⟩, hr⟩ := Engine.outcome_inside hg hq
    exact h.isSinkPair h₁ h₂ hr
  · obtain ⟨⟨h₁, h₂⟩, ⟨h₃, h₄⟩, -⟩ := Engine.outcome_inside hg hq
    exact h.describe _ h₁ _ h₂ _ h₃ _ h₄

end PairConfig.AgreeOn

/-- Only pairs inside of routines count: declarations that agree on these have the same path graphs,
record the same quadruples from the same parents in the same order and list the same findings, or
meet the same obstacle. -/
theorem correlate_agree (hg : g.Built) (h : pairs.AgreeOn g pairs') (config : CorrelationConfig) :
    (g.Nameable → pairs.Answers g →
      ∃ c fs, correlate g pairs config = .ok c ∧ c.findings = .ok fs) ∧
    (∀ o, correlate g pairs config = .error o ↔ correlate g pairs' config = .error o) ∧
    ∀ c, correlate g pairs config = .ok c →
      ∃ c', correlate g pairs' config = .ok c' ∧ c.SameResult c' := by
  have hsettles := h.settles
  have hflow := h.settlesFlow hg.valid config.depth
  refine ⟨fun hname hpairs => hpairs.exists_findings hg.valid hname config, fun o => ?_,
    fun c hc => ⟨(Engine.of g pairs' config).outcome, ?_, ?_⟩⟩
  · rw [correlate_eq, correlate_eq, hsettles, hflow, hflow]
    split_ifs <;> simp
  · rw [correlate_eq] at hc ⊢
    rw [hsettles, hflow, hflow]
    split_ifs at hc ⊢ with h₁ h₂ h₃
    rfl
  · obtain rfl := eq_outcome_of_correlate hc
    exact h.sameResult hg.valid config

/-- A catalogue that pairs the second value with any other one, in whatever routine, and a table that
lists the pair in its routine and one that is not in the graph at all. -/
theorem correlate_agree_sample :
    let c : Catalogue := {
      name := ['c'], sourceRules := [{ first := {}, second := { id := some ['t'] }, distinct := true }]
      sinkRules := [{ first := { id := some ['k'] }, second := { id := some ['l'] } }] }
    let t : PairTable := { sources := [(['s'], ['t']), (['x'], ['y'])], sinks := [(['k'], ['l'])] }
    let config : CorrelationConfig := { policy := .callSite, depth := 2, most := 20 }
    FlowGraph.sample.Built ∧ t.config.AgreeOn .sample c.config ∧
    (∃ a ∈ FlowGraph.sample.nodes, ∃ b ∈ FlowGraph.sample.nodes,
      t.config.sourcePair a b ≠ c.config.sourcePair a b) ∧
    ∃ r r' fs, correlate .sample t.config config = .ok r ∧ r.findings = .ok fs ∧ fs ≠ [] ∧
      correlate .sample c.config config = .ok r' ∧ r.SameResult r' := by
  intro c t config
  have hagree : t.config.AgreeOn .sample c.config := by
    refine ⟨by decide, by decide, fun side n _ => ?_, fun _ _ _ _ _ _ _ _ => rfl⟩
    cases side <;> rfl
  have hname : FlowGraph.sample.Nameable := ⟨by decide, by decide⟩
  obtain ⟨hexists, -, hsame⟩ := correlate_agree FlowGraph.built_sample hagree config
  obtain ⟨r, fs, hr, hfs⟩ := hexists hname (t.answers _)
  obtain ⟨r', hr', hresult⟩ := hsame r hr
  refine ⟨FlowGraph.built_sample, hagree, by decide, r, r', fs, hr, hfs, ?_, hr', hresult⟩
  obtain rfl := eq_outcome_of_correlate hr
  have hquadruples := Correlation.quadruple_of_mapM hfs
  rintro rfl
  exact absurd hquadruples (by decide)

end Lockstep
