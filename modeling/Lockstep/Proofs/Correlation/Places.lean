import Lockstep.Proofs.Correlation.Shortest
/-!
The places of quadruples. Two correlations are compared by the flow nodes and open calls of what they
record, since each has path nodes of its own. Without a limit the recorded places are those that a
journey leads to, and the chain of a quadruple is one record longer than a shortest journey.
-/

set_option autoImplicit false

namespace Lockstep

open Search

/-- Where the two flows of a quadruple began and where they are: of each path node the identifier of
the flow node and the sites of the open calls. -/
structure Places where
  source1 : Text × List Json
  source2 : Text × List Json
  node1 : Text × List Json
  node2 : Text × List Json
  deriving DecidableEq

def Quadruple.places (q : Quadruple) : Places :=
  ⟨q.source1.place, q.source2.place, q.node1.place, q.node2.place⟩

/-- Where a journey begins and ends. -/
def Places.ofEnds (a b : FlowNode) (s t : Position) : Places :=
  ⟨(a.id, []), (b.id, []), s.place, t.place⟩

/-- The places of the quadruples that correlating a graph records. -/
def recordedPlaces (g : FlowGraph) (pairs : PairConfig) (config : CorrelationConfig) :
    Set Places :=
  {k | ∃ c, correlate g pairs config = .ok c ∧ ∃ q ∈ c.quadruples, q.places = k}

/-- The places of the findings that correlating a graph lists. -/
def foundPlaces (g : FlowGraph) (pairs : PairConfig) (config : CorrelationConfig) : Set Places :=
  {k | ∃ c fs, correlate g pairs config = .ok c ∧ c.findings = .ok fs ∧
    ∃ f ∈ fs, f.quadruple.places = k}

/-- A journey of so many steps leads there. -/
def JourneyTo (g : FlowGraph) (pairs : PairConfig) (config : CorrelationConfig) (n : Nat)
    (k : Places) : Prop :=
  ∃ a b s t, Journey g pairs config n a b s t ∧ k = .ofEnds a b s t

variable {g g' : FlowGraph} {pairs pairs' : PairConfig} {config config' : CorrelationConfig}
  {n : Nat} {k : Places} {q r : Quadruple} {a b : FlowNode} {s t : Position} {c c' : Correlation}

theorem PathNode.At.place_eq {m : PathNode} (h : m.At s) : m.place = s.place := by
  simp [Position.place, PathNode.position, h.1, h.2.1]

theorem Quadruple.At.places_eq {depth : Int}
    (h : q.At (.initial depth a) (.initial depth b) s t) : q.places = .ofEnds a b s t := by
  rw [places, h.source1.place_eq, h.source2.place_eq, h.node1.place_eq, h.node2.place_eq]
  rfl

namespace Engine

theorem places_inj (hg : g.Valid) (hq : q ∈ (of g pairs config).domain)
    (hr : r ∈ (of g pairs config).domain) (h : q.places = r.places) : q = r := by
  obtain ⟨h₁, h₂, h₃, h₄⟩ := mem_domain.mp hq
  obtain ⟨h₁', h₂', h₃', h₄'⟩ := mem_domain.mp hr
  obtain ⟨hs₁, hs₂, hn₁, hn₂⟩ := Places.mk.inj h
  rw [← Quadruple.ends_inj, Quadruple.ends, Quadruple.ends,
    PathGraph.place_inj_build hg h₁ h₁' hs₁, PathGraph.place_inj_build hg h₂ h₂' hs₂,
    PathGraph.place_inj_build hg h₃ h₃' hn₁, PathGraph.place_inj_build hg h₄ h₄' hn₂]

/-- So many rules derive a quadruple exactly if a journey of as many steps leads to its places. -/
theorem reachedIn_iff_journeyTo (hg : g.Valid) (hq : q ∈ (of g pairs config).domain) :
    ReachedIn (of g pairs config).next (of g pairs config).seeds n q ↔
      JourneyTo g pairs config n q.places := by
  obtain ⟨hA, hB⟩ := inward_of hg pairs config
  constructor
  · intro h
    obtain ⟨a, b, s, t, hjourney, hat⟩ := journey_of_reachedIn hg h
    exact ⟨a, b, s, t, hjourney, hat.places_eq⟩
  · intro h
    obtain ⟨a, b, s, t, hjourney, hplaces⟩ := h
    obtain ⟨r, hr, hat⟩ :=
      reachedIn_of_pairRun hg hjourney.source hjourney.run hjourney.escapesA hjourney.escapesB
    have hmem := mem_domain_of_reached hA hB hr.reached
    obtain rfl := places_inj hg hq hmem (hplaces.trans hat.places_eq.symm)
    exact hr

theorem mem_domain_of_recorded (hg : g.Valid) (hmost : config.most = 0)
    (hq : q ∈ (of g pairs config).outcome.quadruples) : q ∈ (of g pairs config).domain := by
  obtain ⟨hA, hB⟩ := inward_of hg pairs config
  exact mem_domain_of_reached hA hB ((mem_quadruples_outcome hA hB hmost).mp hq)

theorem exists_journey (hg : g.Valid) (hmost : config.most = 0)
    (hq : q ∈ (of g pairs config).outcome.quadruples) :
    ∃ n a b s t, Journey g pairs config n a b s t ∧
      q.At (.initial config.depth a) (.initial config.depth b) s t := by
  obtain ⟨hA, hB⟩ := inward_of hg pairs config
  obtain ⟨n, hn⟩ := ((mem_quadruples_outcome hA hB hmost).mp hq).exists_in
  exact ⟨n, journey_of_reachedIn hg hn⟩

theorem exists_quadruple (hg : g.Valid) (hmost : config.most = 0)
    (h : Journey g pairs config n a b s t) : ∃ q ∈ (of g pairs config).outcome.quadruples,
      q.At (.initial config.depth a) (.initial config.depth b) s t := by
  obtain ⟨hA, hB⟩ := inward_of hg pairs config
  obtain ⟨q, hq, hat⟩ := reachedIn_of_pairRun hg h.source h.run h.escapesA h.escapesB
  exact ⟨q, (mem_quadruples_outcome hA hB hmost).mpr hq.reached, hat⟩

/-- Quadruples that journeys of the same lengths lead to have chains of one length. -/
theorem length_chain_congr {q' : Quadruple} (hg : g.Valid) (hg' : g'.Valid)
    (hmost : config.most = 0) (hmost' : config'.most = 0)
    (hq : q ∈ (of g pairs config).outcome.quadruples)
    (hq' : q' ∈ (of g' pairs' config').outcome.quadruples)
    (h : ∀ n, JourneyTo g pairs config n q.places ↔ JourneyTo g' pairs' config' n q'.places) :
    ((of g pairs config).outcome.chain q).length =
      ((of g' pairs' config').outcome.chain q').length := by
  rw [length_chain hq, length_chain hq']
  have hmem := mem_domain_of_recorded hg hmost hq
  have hmem' := mem_domain_of_recorded hg' hmost' hq'
  have hlengths : ∀ n, ReachedIn (of g pairs config).next (of g pairs config).seeds n q ↔
      ReachedIn (of g' pairs' config').next (of g' pairs' config').seeds n q' := fun n => by
    rw [reachedIn_iff_journeyTo hg hmem, h, reachedIn_iff_journeyTo hg' hmem']
  exact congrArg (sInf · + 1) (Set.ext hlengths)

end Engine

theorem mem_recordedPlaces (hg : g.Valid) (hmost : config.most = 0) :
    k ∈ recordedPlaces g pairs config ↔
      (∃ c, correlate g pairs config = .ok c) ∧ ∃ n, JourneyTo g pairs config n k := by
  constructor
  · intro h
    obtain ⟨c, hc, q, hq, rfl⟩ := h
    obtain rfl := eq_outcome_of_correlate hc
    obtain ⟨n, a, b, s, t, hjourney, hat⟩ := Engine.exists_journey hg hmost hq
    exact ⟨⟨_, hc⟩, n, a, b, s, t, hjourney, hat.places_eq⟩
  · intro h
    obtain ⟨⟨c, hc⟩, n, a, b, s, t, hjourney, rfl⟩ := h
    obtain rfl := eq_outcome_of_correlate hc
    obtain ⟨q, hq, hat⟩ := Engine.exists_quadruple hg hmost hjourney
    exact ⟨_, hc, q, hq, hat.places_eq⟩

theorem mem_foundPlaces_of_isFinding {fs : List Finding} (hc : correlate g pairs config = .ok c)
    (hfs : c.findings = .ok fs) (hq : q ∈ c.quadruples) (hsink : c.isFinding q = true) :
    q.places ∈ foundPlaces g pairs config := by
  have hfound : q ∈ fs.map (·.quadruple) := by
    rw [Correlation.quadruple_of_mapM hfs]
    exact List.mem_filter.mpr ⟨hq, hsink⟩
  obtain ⟨f, hf, rfl⟩ := List.mem_map.mp hfound
  exact ⟨c, fs, hc, hfs, f, hf, rfl⟩

/-- The findings are where journeys end at sink pairs. -/
theorem mem_foundPlaces (hg : g.Valid) (hmost : config.most = 0) :
    k ∈ foundPlaces g pairs config ↔
      (∃ c fs, correlate g pairs config = .ok c ∧ c.findings = .ok fs) ∧
      ∃ n a b s t, Journey g pairs config n a b s t ∧ pairs.isSinkPair s.node t.node = true ∧
        k = .ofEnds a b s t := by
  constructor
  · intro h
    obtain ⟨c, fs, hc, hfs, f, hf, rfl⟩ := h
    obtain rfl := eq_outcome_of_correlate hc
    obtain ⟨hq, hsink, -⟩ := Correlation.of_mem_findings hfs hf
    obtain ⟨n, a, b, s, t, hjourney, hat⟩ := Engine.exists_journey hg hmost hq
    rw [hat.node1.1, hat.node2.1] at hsink
    exact ⟨⟨_, fs, hc, hfs⟩, n, a, b, s, t, hjourney, hsink, hat.places_eq⟩
  · intro h
    obtain ⟨⟨c, fs, hc, hfs⟩, n, a, b, s, t, hjourney, hsink, rfl⟩ := h
    obtain rfl := eq_outcome_of_correlate hc
    obtain ⟨q, hq, hat⟩ := Engine.exists_quadruple hg hmost hjourney
    rw [← hat.node1.1, ← hat.node2.1] at hsink
    exact hat.places_eq ▸ mem_foundPlaces_of_isFinding hc hfs hq hsink

section Answers

variable (hpairs : pairs.Answers g) (hg : g.Valid) (hname : g.Nameable)
include hpairs hg hname

theorem PairConfig.Answers.nonempty_foundPlaces
    (h : ∃ q ∈ (Engine.of g pairs config).outcome.quadruples,
      (Engine.of g pairs config).outcome.isFinding q = true) :
    (foundPlaces g pairs config).Nonempty := by
  obtain ⟨c, fs, hc, hfs⟩ := hpairs.exists_findings hg hname config
  obtain rfl := eq_outcome_of_correlate hc
  obtain ⟨q, hq, hsink⟩ := h
  exact ⟨_, mem_foundPlaces_of_isFinding hc hfs hq hsink⟩

variable (hmost : config.most = 0)
include hmost

theorem PairConfig.Answers.mem_recordedPlaces :
    k ∈ recordedPlaces g pairs config ↔ ∃ n, JourneyTo g pairs config n k := by
  rw [Lockstep.mem_recordedPlaces hg hmost]
  exact and_iff_right ⟨_, hpairs.correlate hg hname config⟩

theorem PairConfig.Answers.mem_foundPlaces :
    k ∈ foundPlaces g pairs config ↔
      ∃ n a b s t, Journey g pairs config n a b s t ∧ pairs.isSinkPair s.node t.node = true ∧
        k = .ofEnds a b s t := by
  rw [Lockstep.mem_foundPlaces hg hmost]
  exact and_iff_right (hpairs.exists_findings hg hname config)

end Answers

end Lockstep
