import Lockstep.Proofs.Correlation.Crossing
import Lockstep.Proofs.Correlation.Outcome
/-!
Contexts that two flows share. Under the policy of call sites a joint step does the same to both
contexts. So two flows that leave their routine only together, and take no call, return or jump
inside of one by themselves, are in the same calling context all the way.
-/

set_option autoImplicit false

namespace Lockstep

theorem FlowEdge.Agrees.site_eq {d e : FlowEdge} (h : d.Agrees e) (hjump : d.kind ≠ .jump) :
    d.site = e.site := by
  have hsame := h.2 hjump
  simp only [sameSite, Bool.and_eq_true, beq_iff_eq] at hsame
  exact hsame.1

namespace CallString

variable {c c' d d' : CallString} {e e' : FlowEdge}

/-- Edges that agree lead from one context to one context. -/
theorem same_of_agrees (h : e.Agrees e') (hd : c.along e = some d) (hd' : c.along e' = some d') :
    d.Same d' := by
  unfold CallString.along CallString.step at hd hd'
  rw [← h.1] at hd'
  cases hk : e.kind with
  | internal =>
    simp only [hk] at hd hd'
    rw [← Option.some.inj hd, ← Option.some.inj hd']
    exact .refl c
  | call =>
    simp only [hk] at hd hd'
    have hsite : e.callSite.key = e'.callSite.key := h.site_eq (by simp [hk])
    rw [← Option.some.inj hd, ← Option.some.inj hd']
    exact ⟨by simp only [CallString.extend, hsite], rfl⟩
  | «return» =>
    simp only [hk] at hd hd'
    have hsite : e.callSite.key = e'.callSite.key := h.site_eq (by simp [hk])
    have hclose : c.closeCall e.callSite = c.closeCall e'.callSite := by
      unfold CallString.closeCall
      rw [hsite]
    rw [hclose, hd'] at hd
    rw [← Option.some.inj hd]
    exact .refl d'
  | jump =>
    simp only [hk] at hd hd'
    rw [← Option.some.inj hd, ← Option.some.inj hd']
    exact .refl _

theorem Same.agree (h : c.Same c') (hagree : e.Agrees e') (hd : c.along e = some d)
    (hd' : c'.along e' = some d') : d.Same d' := by
  obtain ⟨b, hb, hsame⟩ := h.along hd
  exact hsame.trans (same_of_agrees hagree hb hd')

end CallString

/-- A local edge takes the one path node to the other. -/
def FlowGraph.Locally (g : FlowGraph) (n m : PathNode) : Prop :=
  ∃ d ∈ g.crossings n m, d.kind = .internal

instance (g : FlowGraph) (n m : PathNode) : Decidable (g.Locally n m) :=
  inferInstanceAs (Decidable (∃ d ∈ g.crossings n m, d.kind = .internal))

/-- From one record of a chain to the next a flow that advances alone does so along a local edge. -/
def AdvancesLocally (g : FlowGraph) (r s : Record) : Prop :=
  (s.step = .advanceA → g.Locally r.quadruple.node1 s.quadruple.node1) ∧
  (s.step = .advanceB → g.Locally r.quadruple.node2 s.quadruple.node2)

instance (g : FlowGraph) (r s : Record) : Decidable (AdvancesLocally g r s) :=
  inferInstanceAs (Decidable (_ ∧ _))

theorem FlowGraph.Locally.sites {g : FlowGraph} {n m : PathNode} (h : g.Locally n m) :
    n.context.sites = m.context.sites := by
  obtain ⟨d, hd, hkind⟩ := h
  obtain ⟨-, -, -, c, hc, hsites⟩ := mem_crossings.mp hd
  simp only [CallString.along, CallString.step, hkind] at hc
  rw [Option.some.inj hc, hsites]

namespace Engine

variable {g : FlowGraph} {pairs : PairConfig} {config : CorrelationConfig} {k : StepKind}
  {p q : Quadruple} {rs : List Record}

/-- Both flows have one bound, so that of their contexts only the calls can differ. -/
theorem Lineage.bounds (hg : g.Valid) (h : (of g pairs config).Lineage rs q) :
    q.node1.context.bound = config.depth ∧ q.node2.context.bound = config.depth := by
  obtain ⟨hA, hB⟩ := inward_of hg pairs config
  obtain ⟨-, -, h₁, h₂⟩ := mem_domain.mp (mem_domain_of_reached hA hB h.reached)
  exact ⟨(PathGraph.arrived_build hg h₁).arrives.fits.bound,
    (PathGraph.arrived_build hg h₂).arrives.fits.bound⟩

/-- A joint step does to the one context what it does to the other. -/
theorem Derives.same_joint (hg : g.Valid) (hpolicy : config.policy = .callSite)
    (h : (of g pairs config).Derives .joint p q) (hp : p.node1.context.Same p.node2.context) :
    q.node1.context.sites = q.node2.context.sites := by
  cases h with
  | joint _ _ _ _ hallows =>
    obtain ⟨d₁, h₁, d₂, h₂, hkind, hsite⟩ := sameCrossing_iff.mp (hallows hpolicy)
    have hagree : d₁.Agrees d₂ := ⟨hkind, fun hjump => (hsite hjump).2⟩
    have hcross₁ := PathGraph.mem_crossings_of_edge? hg h₁
    have hcross₂ := PathGraph.mem_crossings_of_edge? hg h₂
    obtain ⟨-, -, -, c₁, hc₁, hsites₁⟩ := FlowGraph.mem_crossings.mp hcross₁
    obtain ⟨-, -, -, c₂, hc₂, hsites₂⟩ := FlowGraph.mem_crossings.mp hcross₂
    exact (hsites₁.symm.trans (hp.agree hagree hc₁ hc₂).1).trans hsites₂

theorem Lineage.same_context (hg : g.Valid) (hpolicy : config.policy = .callSite)
    (h : (of g pairs config).Lineage rs q) (hlocal : rs.IsChain (AdvancesLocally g)) :
    q.node1.context.Same q.node2.context := by
  induction h with
  | seed hs =>
    have hA := (source_at hg hs.sourceA).2.2
    have hB := (source_at hg hs.sourceB).2.2
    exact hA.trans hB.symm
  | @derived rs p q k hrs hd hnew ih =>
    obtain ⟨hrest, -, hlast⟩ := List.isChain_append.mp hlocal
    have hp := ih hrest
    -- the new record is linked to that of its parent
    obtain ⟨r, hr, hquad⟩ := Option.map_eq_some_iff.mp hrs.getLast?
    have hlink := hlast r hr ⟨q, some p, k⟩ rfl
    obtain ⟨hboundA, hboundB⟩ := (hrs.derived hd hnew).bounds hg
    refine ⟨?_, hboundA.trans hboundB.symm⟩
    subst hquad
    cases hd with
    | advanceA _ _ => exact ((hlink.1 rfl).sites.symm).trans hp.1
    | advanceB _ _ => exact hp.1.trans (hlink.2 rfl).sites
    | joint h₁ h₂ hr hne hallows =>
      exact (Derives.joint h₁ h₂ hr hne hallows).same_joint hg hpolicy hp

end Engine

/-- Correlating by call sites gives a result if the graph allows it, and both flows of a recorded
quadruple have one context if those before it that advanced alone did so along local edges. The
edge need not be the one that the path graph keeps for the step: any local one will do. -/
theorem correlate_sameContext {g : FlowGraph} (hg : g.Built) (pairs : PairConfig)
    (config : CorrelationConfig) (hpolicy : config.policy = .callSite) :
    (g.Nameable → pairs.Answers g → ∃ c, correlate g pairs config = .ok c) ∧
    ∀ c, correlate g pairs config = .ok c → ∀ q ∈ c.quadruples,
      (c.chain q).IsChain (AdvancesLocally g) → q.node1.context.Same q.node2.context := by
  refine ⟨fun hname hpairs => ⟨_, hpairs.correlate hg.valid hname config⟩,
    fun c hc q hq hlocal => ?_⟩
  obtain rfl := eq_outcome_of_correlate hc
  exact (Engine.outcome_lineage hq).same_context hg.valid hpolicy hlocal

/-- Both values come to their sinks in the context of the one call that they went through. -/
theorem correlate_sameContext_sample :
    let pairs := PairTable.config { sources := [(['s'], ['t'])], sinks := [(['k'], ['l'])] }
    let config : CorrelationConfig := { policy := .callSite, depth := 2, most := 20 }
    FlowGraph.sample.Built ∧ config.policy = .callSite ∧
    FlowGraph.sample.Nameable ∧ pairs.Answers .sample ∧
    ∃ c, correlate .sample pairs config = .ok c ∧ ∃ q ∈ c.quadruples,
      c.isFinding q = true ∧ (c.chain q).IsChain (AdvancesLocally .sample) ∧
      q.node1.context.sites ≠ [] ∧ q.node1.context.Same q.node2.context := by
  intro pairs config
  have hname : FlowGraph.sample.Nameable := ⟨by decide, by decide⟩
  have hpairs : pairs.Answers .sample := PairTable.answers _ _
  obtain ⟨hexists, hall⟩ := correlate_sameContext FlowGraph.built_sample pairs config rfl
  obtain ⟨c, hc⟩ := hexists hname hpairs
  refine ⟨FlowGraph.built_sample, rfl, hname, hpairs, c, hc, ?_⟩
  have hsame := hall c hc
  obtain rfl := eq_outcome_of_correlate hc
  let found := (Engine.of .sample pairs config).outcome
  have hlocal : ∃ q ∈ found.quadruples, found.isFinding q = true ∧
      (found.chain q).IsChain (AdvancesLocally .sample) ∧ q.node1.context.sites ≠ [] := by decide
  obtain ⟨q, hq, hfinding, hchain, hsites⟩ := hlocal
  exact ⟨q, hq, hfinding, hchain, hsites, hsame q hq hchain⟩

end Lockstep
