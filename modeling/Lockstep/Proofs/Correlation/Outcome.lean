import Lockstep.Proofs.Correlation.Listing
import Lockstep.Proofs.Correlation.Meaning
/-!
What correlating a graph comes to. If the graph allows it at all it is the outcome of the engine for
the graph, and it is allowed where every question has an answer and every site can be looked up.
-/

set_option autoImplicit false

namespace Lockstep

open Search

variable {g : FlowGraph} {pairs : PairConfig} {config : CorrelationConfig} {e : Engine}
  {c : Correlation} {rs : List Record} {q : Quadruple}

theorem Engine.checkedSolve_eq (e : Engine) : e.checkedSolve = .ok e.outcome := by
  rw [checkedSolve, solve_eq_outcome]
  rfl

theorem Engine.pairs_outcome (g : FlowGraph) (pairs : PairConfig) (config : CorrelationConfig) :
    (of g pairs config).outcome.pairs = pairs := rfl

/-- A graph is correlated if nothing that is asked about it is left without an answer. -/
theorem correlate_eq (g : FlowGraph) (pairs : PairConfig) (config : CorrelationConfig) :
    correlate g pairs config =
      if !pairs.settles g then .error .unsettledPairs
      else if !pairs.settlesFlow g config.depth .a then .error (.unsettledFlow .a)
      else if !pairs.settlesFlow g config.depth .b then .error (.unsettledFlow .b)
      else .ok (Engine.of g pairs config).outcome := by
  unfold correlate Engine.checked PairConfig.checkedFlow
  cases hpairs : pairs.settles g with
  | false => rfl
  | true =>
    cases hA : pairs.settlesFlow g config.depth .a with
    | false => rfl
    | true =>
      cases hB : pairs.settlesFlow g config.depth .b with
      | false => rfl
      | true => exact Engine.checkedSolve_eq _

theorem eq_outcome_of_correlate (h : correlate g pairs config = .ok c) :
    c = (Engine.of g pairs config).outcome := by
  rw [correlate_eq] at h
  split_ifs at h
  exact (Except.ok.inj h).symm

theorem PairConfig.Answers.correlate (h : pairs.Answers g) (hg : g.Valid) (hname : g.Nameable)
    (config : CorrelationConfig) :
    correlate g pairs config = .ok (Engine.of g pairs config).outcome := by
  unfold Lockstep.correlate
  rw [h.checked hg hname config]
  exact Engine.checkedSolve_eq _

namespace Correlation

/-- Findings are listed if each of them can be described. -/
theorem exists_findings_iff :
    (∃ fs, c.findings = .ok fs) ↔ ∀ q ∈ c.quadruples, c.isFinding q = true → ∃ t,
      c.pairs.describe q.source1.node q.source2.node q.node1.node q.node2.node = .ok t := by
  constructor
  · intro h q hq hsink
    obtain ⟨fs, hfs⟩ := h
    have hfound : q ∈ fs.map (·.quadruple) := by
      rw [quadruple_of_mapM hfs]
      exact List.mem_filter.mpr ⟨hq, hsink⟩
    obtain ⟨f, hf, rfl⟩ := List.mem_map.mp hfound
    obtain ⟨r, -, hr⟩ := exists_of_mapM hfs hf
    rw [(findingOf_eq_ok hr).1]
    unfold findingOf at hr
    cases ht : c.pairs.describe r.source1.node r.source2.node r.node1.node r.node2.node with
    | ok t => exact ⟨t, rfl⟩
    | error err => simp [ht, bind, Except.bind] at hr
  · intro h
    obtain ⟨fs, hfs, -⟩ := exists_findings_of_describe h
    exact ⟨fs, hfs⟩

end Correlation

namespace Engine

theorem Lineage.reached (h : e.Lineage rs q) : Reached e.next e.seeds q := by
  induction h with
  | seed hs => exact .of_mem (mem_seeds.mpr hs)
  | derived _ hd _ ih => exact ih.next (mem_next.mpr ⟨_, hd⟩)

theorem exists_findings_outcome (hg : g.Valid) (hpairs : pairs.Answers g)
    (config : CorrelationConfig) : ∃ fs, (of g pairs config).outcome.findings = .ok fs := by
  have hdescribe : ∀ q ∈ (of g pairs config).outcome.quadruples, ∃ t,
      pairs.describe q.source1.node q.source2.node q.node1.node q.node2.node = .ok t :=
    fun q hq => exists_describe hg hpairs (outcome_lineage hq).reached
  obtain ⟨fs, hfs, -⟩ := Correlation.exists_findings hdescribe
  exact ⟨fs, hfs⟩

theorem mem_quadruples_outcome (hA : e.flowA.Inward) (hB : e.flowB.Inward)
    (hmost : e.config.most = 0) : q ∈ e.outcome.quadruples ↔ Reached e.next e.seeds q := by
  obtain ⟨c, hc, -, -, -, hmem⟩ := solve_unlimited hA hB hmost
  obtain rfl := Except.ok.inj (e.solve_eq_outcome.symm.trans hc)
  exact hmem q

end Engine

/-- Where every question has an answer there is a correlation, and it lists its findings. -/
theorem PairConfig.Answers.exists_findings (h : pairs.Answers g) (hg : g.Valid) (hname : g.Nameable)
    (config : CorrelationConfig) :
    ∃ c fs, Lockstep.correlate g pairs config = .ok c ∧ c.findings = .ok fs := by
  obtain ⟨fs, hfs⟩ := Engine.exists_findings_outcome hg h config
  exact ⟨_, fs, h.correlate hg hname config, hfs⟩

end Lockstep
