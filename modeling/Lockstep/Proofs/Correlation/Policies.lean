import Lockstep.Proofs.Correlation.Places
/-!
Correlations under the two policies. The policy is looked at where both flows go over together and
nowhere else, so by routines every rule derives what it derives by call sites, and perhaps more. The
two runs part at the first crossing that is not permitted, and may record other parents from there on;
but what is derived by call sites is derived by routines too, from as near to a seed.
-/

set_option autoImplicit false

namespace Lockstep

open Search

/-- The same path graphs and pairs, by routines. -/
def Engine.byRoutine (e : Engine) : Engine := { e with config := { e.config with policy := .routine } }

variable {g : FlowGraph} {pairs : PairConfig} {config : CorrelationConfig} {e : Engine}
  {k : StepKind} {p q : Quadruple}

namespace Engine

theorem Derives.byRoutine (h : e.Derives k p q) : e.byRoutine.Derives k p q := by
  cases h with
  | advanceA hn hr => exact .advanceA hn hr
  | advanceB hn hr => exact .advanceB hn hr
  | joint h₁ h₂ htogether hleaves _ =>
    exact .joint h₁ h₂ htogether hleaves fun hpolicy => absurd hpolicy (by simp [Engine.byRoutine])

theorem next_byRoutine (e : Engine) (p : Quadruple) : e.next p ⊆ e.byRoutine.next p := by
  intro q hq
  obtain ⟨k, hk⟩ := mem_next.mp hq
  exact mem_next.mpr ⟨k, hk.byRoutine⟩

/-- Seeds are the same under both policies. -/
theorem reached_byRoutine (h : Reached e.next e.seeds q) :
    Reached e.byRoutine.next e.byRoutine.seeds q := by
  obtain ⟨n, hn⟩ := h.exists_in
  exact (hn.mono e.next_byRoutine).reached

theorem distance_byRoutine (h : Reached e.next e.seeds q) :
    distance e.byRoutine.next e.byRoutine.seeds q ≤ distance e.next e.seeds q :=
  h.distance_mono e.next_byRoutine

theorem quadruples_byRoutine (hA : e.flowA.Inward) (hB : e.flowB.Inward) (hmost : e.config.most = 0) :
    e.outcome.quadruples ⊆ e.byRoutine.outcome.quadruples := by
  intro q hq
  have hreached := (mem_quadruples_outcome hA hB hmost).mp hq
  exact (mem_quadruples_outcome (e := e.byRoutine) hA hB hmost).mpr (reached_byRoutine hreached)

theorem length_chain_byRoutine (hq : q ∈ e.outcome.quadruples)
    (hq' : q ∈ e.byRoutine.outcome.quadruples) :
    (e.byRoutine.outcome.chain q).length ≤ (e.outcome.chain q).length := by
  rw [length_chain hq, length_chain hq']
  exact Nat.succ_le_succ (distance_byRoutine (outcome_lineage hq).reached)

end Engine

/-- By the same pairs fewer quadruples have fewer findings, and if all of them can be described so
can these. -/
theorem Correlation.findings_subset {c c' : Correlation} {fs' : List Finding}
    (hpairs : c.pairs = c'.pairs) (hsub : c.quadruples ⊆ c'.quadruples)
    (hfs' : c'.findings = .ok fs') :
    ∃ fs, c.findings = .ok fs ∧ fs.map (·.quadruple) ⊆ fs'.map (·.quadruple) := by
  have hdescribe := exists_findings_iff.mp ⟨fs', hfs'⟩
  have hexists : ∃ fs, c.findings = .ok fs := by
    refine exists_findings_iff.mpr fun q hq hsink => ?_
    rw [isFinding, hpairs] at hsink
    rw [hpairs]
    exact hdescribe q (hsub hq) hsink
  obtain ⟨fs, hfs⟩ := hexists
  refine ⟨fs, hfs, fun q hq => ?_⟩
  rw [quadruple_of_mapM hfs, List.mem_filter, isFinding, hpairs] at hq
  rw [quadruple_of_mapM hfs']
  exact List.mem_filter.mpr ⟨hsub hq.1, hq.2⟩

/-- The stricter policy only takes away: whatever is recorded or found by call sites is recorded or
found by routines, with a chain that is no longer. -/
theorem correlate_stricter (hg : g.Built) (pairs : PairConfig) (depth : Int) :
    let strict : CorrelationConfig := { policy := .callSite, depth, most := 0 }
    let loose : CorrelationConfig := { policy := .routine, depth, most := 0 }
    (g.Nameable → pairs.Answers g → ∀ config : CorrelationConfig,
      ∃ c fs, correlate g pairs config = .ok c ∧ c.findings = .ok fs) ∧
    (∀ o, correlate g pairs strict = .error o ↔ correlate g pairs loose = .error o) ∧
    ∀ c c', correlate g pairs strict = .ok c → correlate g pairs loose = .ok c' →
      c.quadruples ⊆ c'.quadruples ∧
      (∀ fs', c'.findings = .ok fs' →
        ∃ fs, c.findings = .ok fs ∧ fs.map (·.quadruple) ⊆ fs'.map (·.quadruple)) ∧
      ∀ q ∈ c.quadruples, (c'.chain q).length ≤ (c.chain q).length := by
  intro strict loose
  refine ⟨fun hname hpairs => hpairs.exists_findings hg.valid hname, fun o => ?_, fun c c' hc hc' => ?_⟩
  · rw [correlate_eq, correlate_eq]
    split_ifs <;> simp
  · rw [eq_outcome_of_correlate hc, eq_outcome_of_correlate hc']
    have hloose : Engine.of g pairs loose = (Engine.of g pairs strict).byRoutine := rfl
    obtain ⟨hA, hB⟩ := Engine.inward_of hg.valid pairs strict
    have hmost : (Engine.of g pairs strict).config.most = 0 := rfl
    rw [hloose]
    generalize Engine.of g pairs strict = e at hA hB hmost ⊢
    have hpairs : e.outcome.pairs = e.byRoutine.outcome.pairs := rfl
    have hsub := Engine.quadruples_byRoutine hA hB hmost
    exact ⟨hsub, fun fs' hfs' => Correlation.findings_subset hpairs hsub hfs',
      fun q hq => Engine.length_chain_byRoutine hq (hsub hq)⟩

/-- The first value may be handed over by a second call, which the other value does not take. By
routines the two values still meet inside. -/
theorem correlate_stricter_sample :
    let e : FlowEdge := { source := ['s'], target := ['p'], kind := .call, callSite := .text ['d'] }
    let g : FlowGraph := { FlowGraph.sample with edges := FlowGraph.sample.edges ++ [e] }
    let pairs := PairTable.config { sources := [(['s'], ['t'])], sinks := [(['k'], ['l'])] }
    g.Built ∧ ∃ c c' fs fs', correlate g pairs { policy := .callSite, depth := 1, most := 0 } = .ok c ∧
      correlate g pairs { policy := .routine, depth := 1, most := 0 } = .ok c' ∧
      c.findings = .ok fs ∧ c'.findings = .ok fs' ∧ fs ≠ [] ∧ fs.length < fs'.length ∧
      c.quadruples ⊆ c'.quadruples ∧ fs.map (·.quadruple) ⊆ fs'.map (·.quadruple) ∧
      ∀ q ∈ c.quadruples, (c'.chain q).length ≤ (c.chain q).length := by
  intro e g pairs
  have hg : g.Built := FlowGraph.built_sample.addEdge (by rfl : FlowGraph.sample.addEdge e = .ok g)
  have hname : g.Nameable := ⟨by decide, by decide⟩
  obtain ⟨hexists, -, hstricter⟩ := correlate_stricter hg pairs 1
  obtain ⟨c, fs, hc, hfs⟩ :=
    hexists hname (PairTable.answers _ g) { policy := .callSite, depth := 1, most := 0 }
  obtain ⟨c', fs', hc', hfs'⟩ :=
    hexists hname (PairTable.answers _ g) { policy := .routine, depth := 1, most := 0 }
  obtain ⟨hquadruples, hfindings, hchains⟩ := hstricter c c' hc hc'
  obtain ⟨fs₀, hfs₀, hfound⟩ := hfindings fs' hfs'
  obtain rfl : fs₀ = fs := Except.ok.inj (hfs₀.symm.trans hfs)
  obtain rfl := eq_outcome_of_correlate hc
  obtain rfl := eq_outcome_of_correlate hc'
  have hlength := congrArg List.length (Correlation.quadruple_of_mapM hfs)
  have hlength' := congrArg List.length (Correlation.quadruple_of_mapM hfs')
  rw [List.length_map] at hlength hlength'
  have hsome : fs₀ ≠ [] := by
    rintro rfl
    exact absurd hlength (by decide)
  have hmore : fs₀.length < fs'.length := by
    rw [hlength, hlength']
    decide
  exact ⟨hg, _, _, fs₀, fs', hc, hc', hfs, hfs', hsome, hmore, hquadruples, hfound, hchains⟩

end Lockstep
