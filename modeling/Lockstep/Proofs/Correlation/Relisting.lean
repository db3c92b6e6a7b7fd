import Lockstep.Proofs.Correlation.Embedding
import Lockstep.Proofs.Flow.Relisting
/-!
Correlations of graphs that list one program. By routines no step is compared with another one, so that
journeys depend only on which routines, nodes and edges there are. Discovery, worklist and parents may
come in another order, but the places that are recorded, the findings and the lengths of the chains are
the same, and so is the obstacle where there is one.
-/

set_option autoImplicit false

namespace Lockstep

variable {g g' : FlowGraph} {pairs : PairConfig} {config : CorrelationConfig} {depth : Int}
  {side : Side} {n : Nat} {a b : FlowNode} {s t : Position} {k : Places}

section Projection

variable (hg : g.Valid) (hg' : g'.Valid) (h : g.SameProgram g')
include hg hg' h

theorem FlowGraph.SameProgram.routinePairs (p : FlowNode × FlowNode) :
    p ∈ g.routinePairs ↔ p ∈ g'.routinePairs := by
  rw [hg.mem_routinePairs, hg'.mem_routinePairs, h.nodes, h.nodes]

theorem FlowGraph.SameProgram.membersOf (relation : FlowNode → FlowNode → Bool) (id : Text) :
    (Projection.membersOf g side relation).contains id =
      (Projection.membersOf g' side relation).contains id := by
  rw [Bool.eq_iff_iff, List.contains_iff_mem, List.contains_iff_mem]
  simp only [Projection.membersOf, List.mem_eraseDups, List.mem_map, List.mem_filter,
    h.routinePairs hg hg']

/-- The single flows start, end and stop at the same nodes. -/
theorem FlowGraph.SameProgram.single (pairs : PairConfig) (side : Side) :
    pairs.single g side = pairs.single g' side := by
  simp only [PairConfig.single, Projection.config, Projection.of, h.membersOf hg hg']

theorem FlowGraph.SameProgram.settles (pairs : PairConfig) : pairs.settles g = pairs.settles g' := by
  rw [Bool.eq_iff_iff]
  simp only [PairConfig.settles, Bool.and_eq_true, List.all_eq_true, h.routines,
    h.routinePairs hg hg']

theorem FlowGraph.SameProgram.settlesFlow (pairs : PairConfig) (depth : Int) (side : Side) :
    pairs.settlesFlow g depth side = pairs.settlesFlow g' depth side := by
  have hsingle := h.single hg hg' pairs side
  simp only [PairConfig.single] at hsingle
  simp only [PairConfig.settlesFlow, hsingle, Exploration.isNameable_relist hg hg' h,
    Exploration.settledBy_relist hg hg' h]

end Projection

theorem FlowGraph.SameProgram.correlate_eq_error (hg : g.Valid) (hg' : g'.Valid)
    (h : g.SameProgram g') (o : Obstacle) :
    correlate g pairs config = .error o ↔ correlate g' pairs config = .error o := by
  rw [correlate_eq, correlate_eq, h.settles hg hg', h.settlesFlow hg hg', h.settlesFlow hg hg']
  split_ifs <;> simp

theorem FlowGraph.SameProgram.exists_correlate (hg : g.Valid) (hg' : g'.Valid)
    (h : g.SameProgram g') (hc : ∃ c, correlate g pairs config = .ok c) :
    ∃ c, correlate g' pairs config = .ok c := by
  cases hc' : correlate g' pairs config with
  | ok c' => exact ⟨c', rfl⟩
  | error o =>
    obtain ⟨c, hc⟩ := hc
    rw [(h.correlate_eq_error hg hg' o).mpr hc'] at hc
    cases hc

/-- Both quadruples are over the same flow nodes. -/
structure Quadruple.SameNodes (q r : Quadruple) : Prop where
  source1 : q.source1.node = r.source1.node
  source2 : q.source2.node = r.source2.node
  node1 : q.node1.node = r.node1.node
  node2 : q.node2.node = r.node2.node

/-- What a finding is and how it is described depends on its flow nodes only. -/
theorem Correlation.exists_findings_of_sameNodes {c c' : Correlation} (hpairs : c'.pairs = c.pairs)
    (h : ∀ q' ∈ c'.quadruples, ∃ q ∈ c.quadruples, q'.SameNodes q)
    (hfs : ∃ fs, c.findings = .ok fs) : ∃ fs, c'.findings = .ok fs := by
  rw [exists_findings_iff] at hfs ⊢
  intro q' hq' hsink
  obtain ⟨q, hq, hnodes⟩ := h q' hq'
  have hsink' : c.isFinding q = true := by
    rwa [isFinding, ← hpairs, ← hnodes.node1, ← hnodes.node2]
  rw [hpairs, hnodes.source1, hnodes.source2, hnodes.node1, hnodes.node2]
  exact hfs q hq hsink'

/-- By routines it does not matter which of the edges between two positions comes first. -/
theorem FlowGraph.SameProgram.embeds (h : g.SameProgram g') (pairs : PairConfig) :
    Embeds .routine g g' pairs pairs where
  node n hn := (h.nodes n).mp hn
  edge e he := (h.edges e).mp he
  first hpolicy := absurd hpolicy (by decide)
  barrier _ _ hb := hb

section Routine

variable (hg : g.Valid) (hg' : g'.Valid) (h : g.SameProgram g') (hpolicy : config.policy = .routine)
include hg hg' h hpolicy

theorem Journey.relist (hj : Journey g pairs config n a b s t) :
    Journey g' pairs config n a b s t :=
  hj.embed_of_sinks (hpolicy ▸ h.embeds pairs) hg hg' hj.source.pair fun _ _ hsink => hsink

theorem JourneyTo.relist (hj : JourneyTo g pairs config n k) : JourneyTo g' pairs config n k := by
  obtain ⟨a, b, s, t, hj, hk⟩ := hj
  exact ⟨a, b, s, t, hj.relist hg hg' h hpolicy, hk⟩

theorem FlowGraph.SameProgram.journeyTo_iff :
    JourneyTo g pairs config n k ↔ JourneyTo g' pairs config n k := by
  constructor
  · intro hj
    exact hj.relist hg hg' h hpolicy
  · intro hj
    exact hj.relist hg' hg h.symm hpolicy

variable (hmost : config.most = 0)
include hmost

theorem FlowGraph.SameProgram.recordedPlaces_subset :
    recordedPlaces g pairs config ⊆ recordedPlaces g' pairs config := by
  intro k hk
  obtain ⟨hc, n, hj⟩ := (mem_recordedPlaces hg hmost).mp hk
  exact (mem_recordedPlaces hg' hmost).mpr
    ⟨h.exists_correlate hg hg' hc, n, hj.relist hg hg' h hpolicy⟩

/-- Each quadruple that is recorded for the one graph has its like for the other. -/
theorem FlowGraph.SameProgram.exists_sameNodes {q : Quadruple}
    (hq : q ∈ (Engine.of g pairs config).outcome.quadruples) :
    ∃ q' ∈ (Engine.of g' pairs config).outcome.quadruples, q.SameNodes q' := by
  obtain ⟨n, a, b, s, t, hj, hat⟩ := Engine.exists_journey hg hmost hq
  obtain ⟨q', hq', hat'⟩ := Engine.exists_quadruple hg' hmost (hj.relist hg hg' h hpolicy)
  exact ⟨q', hq', hat.source1.1.trans hat'.source1.1.symm, hat.source2.1.trans hat'.source2.1.symm,
    hat.node1.1.trans hat'.node1.1.symm, hat.node2.1.trans hat'.node2.1.symm⟩

theorem FlowGraph.SameProgram.exists_findings
    (hfs : ∃ fs, (Engine.of g pairs config).outcome.findings = .ok fs) :
    ∃ fs, (Engine.of g' pairs config).outcome.findings = .ok fs := by
  refine Correlation.exists_findings_of_sameNodes ?_ (fun q' hq' => ?_) hfs
  · rw [Engine.pairs_outcome, Engine.pairs_outcome]
  · exact h.symm.exists_sameNodes hg' hg hpolicy hmost hq'

theorem FlowGraph.SameProgram.foundPlaces_subset :
    foundPlaces g pairs config ⊆ foundPlaces g' pairs config := by
  intro k hk
  obtain ⟨⟨c, fs, hc, hfs⟩, n, a, b, s, t, hj, hsink, rfl⟩ := (mem_foundPlaces hg hmost).mp hk
  obtain ⟨c', hc'⟩ := h.exists_correlate hg hg' ⟨c, hc⟩
  obtain rfl := eq_outcome_of_correlate hc
  obtain rfl := eq_outcome_of_correlate hc'
  obtain ⟨fs', hfs'⟩ := h.exists_findings hg hg' hpolicy hmost ⟨fs, hfs⟩
  exact (mem_foundPlaces hg' hmost).mpr
    ⟨⟨_, fs', hc', hfs'⟩, n, a, b, s, t, hj.relist hg hg' h hpolicy, hsink, rfl⟩

end Routine

/-- The order in which a program is listed, and edges listed again, make no difference to what
correlating it by routines records and finds, nor to how long the chains are. -/
theorem correlate_relisted (hg : g.Built) (hg' : g'.Built) (h : g.SameProgram g')
    (pairs : PairConfig) (depth : Int) :
    let config : CorrelationConfig := { policy := .routine, depth, most := 0 }
    (g.Nameable → pairs.Answers g →
      ∃ c fs, correlate g pairs config = .ok c ∧ c.findings = .ok fs) ∧
    (∀ o, correlate g pairs config = .error o ↔ correlate g' pairs config = .error o) ∧
    recordedPlaces g pairs config = recordedPlaces g' pairs config ∧
    foundPlaces g pairs config = foundPlaces g' pairs config ∧
    (∀ c c', correlate g pairs config = .ok c → correlate g' pairs config = .ok c' →
      ((∃ fs, c.findings = .ok fs) ↔ ∃ fs, c'.findings = .ok fs) ∧
      ∀ q ∈ c.quadruples, ∀ q' ∈ c'.quadruples, q.places = q'.places →
        (c.chain q).length = (c'.chain q').length) := by
  intro config
  have hsame := h.symm
  refine ⟨fun hname hpairs => hpairs.exists_findings hg.valid hname config,
    h.correlate_eq_error hg.valid hg'.valid,
    (h.recordedPlaces_subset hg.valid hg'.valid rfl rfl).antisymm
      (hsame.recordedPlaces_subset hg'.valid hg.valid rfl rfl),
    (h.foundPlaces_subset hg.valid hg'.valid rfl rfl).antisymm
      (hsame.foundPlaces_subset hg'.valid hg.valid rfl rfl), fun c c' hc hc' => ?_⟩
  obtain rfl := eq_outcome_of_correlate hc
  obtain rfl := eq_outcome_of_correlate hc'
  refine ⟨⟨h.exists_findings hg.valid hg'.valid rfl rfl,
    hsame.exists_findings hg'.valid hg.valid rfl rfl⟩, fun q hq q' hq' hplaces => ?_⟩
  refine Engine.length_chain_congr hg.valid hg'.valid rfl rfl hq hq' fun n => ?_
  rw [← hplaces]
  exact h.journeyTo_iff hg.valid hg'.valid rfl

/-- The same program from its end to its beginning, with each edge twice. -/
theorem correlate_relisted_sample :
    let pairs := PairTable.config { sources := [(['s'], ['t'])], sinks := [(['k'], ['l'])] }
    let g := FlowGraph.sample
    let g' : FlowGraph := {
      routines := g.routines.reverse, nodes := g.nodes.reverse, edges := g.edges.reverse ++ g.edges }
    let config : CorrelationConfig := { policy := .routine, depth := 1, most := 0 }
    g.Built ∧ g'.Built ∧ g.SameProgram g' ∧
    foundPlaces g pairs config = foundPlaces g' pairs config ∧
    (foundPlaces g pairs config).Nonempty := by
  intro pairs g g' config
  have hg : g.Built := FlowGraph.built_sample
  have hg' : g'.Built :=
    FlowGraph.built_of_assemble (by rfl : FlowGraph.assemble g'.nodes g'.edges = .ok g')
  have hsame : g.SameProgram g' := ⟨by simp [g'], by simp [g'], by simp [g']⟩
  obtain ⟨-, -, -, hfound, -⟩ := correlate_relisted hg hg' hsame pairs 1
  have hname : g.Nameable := ⟨by decide, by decide⟩
  exact ⟨hg, hg', hsame, hfound,
    (PairTable.answers _ g).nonempty_foundPlaces hg.valid hname (by decide)⟩

end Lockstep
