import Lockstep.Proofs.Correlation.Crossing
import Lockstep.Proofs.Correlation.Traces
/-!
Calls that two traces share. Under the policy of call sites the two traces of a finding change
their routines equally often, once for each joint step, and each time into one routine by edges of
one kind through one call.
-/

set_option autoImplicit false

namespace Lockstep

/-- The steps of a trace that lead to another routine. -/
def routineChanges (trace : List PathNode) : List (PathNode × PathNode) :=
  (trace.zip trace.tail).filter fun step => step.1.routine != step.2.routine

/-- Two steps into one routine. The edges by which their path graphs know them are of one kind and,
unless they are jumps, go through one call. -/
structure ShareCall (g : FlowGraph) (flowA flowB : PathGraph) (x y : PathNode × PathNode) : Prop where
  routine : x.2.routine = y.2.routine
  edges : ∃ d₁ ∈ flowA.edge? x.1 x.2, ∃ d₂ ∈ flowB.edge? y.1 y.2,
    d₁ ∈ g.crossings x.1 x.2 ∧ d₂ ∈ g.crossings y.1 y.2 ∧ d₁.kind = d₂.kind ∧
    (d₁.kind ≠ .jump → d₁.callSite ≠ .null ∧ sameSite d₁.site d₂.site = true)

theorem zip_tail_concat {α : Type} {xs : List α} {x y : α} (h : xs.getLast? = some x) :
    (xs ++ [y]).zip (xs ++ [y]).tail = xs.zip xs.tail ++ [(x, y)] := by
  induction xs with
  | nil => simp at h
  | cons a xs ih =>
    cases xs with
    | nil =>
      obtain rfl : a = x := by simpa using h
      rfl
    | cons b xs =>
      have hrest := ih (by simpa using h)
      simpa using hrest

theorem routineChanges_concat {trace : List PathNode} {n m : PathNode}
    (h : trace.getLast? = some n) : routineChanges (trace ++ [m]) =
      if n.routine = m.routine then routineChanges trace else routineChanges trace ++ [(n, m)] := by
  rw [routineChanges, zip_tail_concat h, List.filter_append]
  by_cases hr : n.routine = m.routine <;> simp [routineChanges, hr]

namespace Engine

variable {e : Engine} {side : Side} {k : StepKind} {p q : Quadruple} {rs : List Record}

/-- A trace changes its routine where the chain has a joint step, and nowhere else. -/
theorem routineChanges_sideTrace (h : e.Lineage rs p) (hd : e.Derives k p q) :
    routineChanges (sideTrace side (rs ++ [⟨q, some p, k⟩])) =
      if k = .joint then routineChanges (sideTrace side rs) ++ [(p.node side, q.node side)]
      else routineChanges (sideTrace side rs) := by
  rcases sideTrace_derived h hd side with ⟨hsame, hk⟩ | ⟨hlonger, hroutine⟩
  · rw [hsame, if_neg hk]
  · rw [hlonger, routineChanges_concat (h.traced side).last]
    by_cases hk : k = .joint
    · rw [if_pos hk, if_neg fun heq => hroutine.mp heq hk]
    · rw [if_neg hk, if_pos (hroutine.mpr hk)]

section Graph

variable {g : FlowGraph} {pairs : PairConfig} {config : CorrelationConfig}

theorem Derives.shareCall (hg : g.Valid) (hpolicy : config.policy = .callSite)
    (h : (of g pairs config).Derives .joint p q) :
    ShareCall g (pairs.flow g config.depth .a) (pairs.flow g config.depth .b)
      (p.node1, q.node1) (p.node2, q.node2) := by
  cases h with
  | joint _ _ htogether _ hallows =>
    obtain ⟨d₁, h₁, d₂, h₂, hagree⟩ := sameCrossing_iff.mp (hallows hpolicy)
    exact ⟨htogether, d₁, h₁, d₂, h₂, PathGraph.mem_crossings_of_edge? hg h₁,
      PathGraph.mem_crossings_of_edge? hg h₂, hagree⟩

/-- Each joint step of a chain is a change of routine in both traces, through one call. -/
theorem Lineage.shareCalls (hg : g.Valid) (hpolicy : config.policy = .callSite)
    (h : (of g pairs config).Lineage rs q) :
    (routineChanges (sideTrace .a rs)).length = (rs.filter (·.step == .joint)).length ∧
    List.Forall₂ (ShareCall g (pairs.flow g config.depth .a) (pairs.flow g config.depth .b))
      (routineChanges (sideTrace .a rs)) (routineChanges (sideTrace .b rs)) := by
  induction h with
  | seed _ => simp [routineChanges, sideTrace, Correlation.trace]
  | @derived rs p q k hrs hd _ ih =>
    rw [routineChanges_sideTrace hrs hd, routineChanges_sideTrace hrs hd, List.filter_append]
    by_cases hk : k = .joint
    · subst hk
      rw [if_pos rfl, if_pos rfl]
      exact ⟨by simp [ih.1], List.rel_append ih.2 (.cons (hd.shareCall hg hpolicy) .nil)⟩
    · rw [if_neg hk, if_neg hk]
      exact ⟨by simp [hk, ih.1], ih.2⟩

end Graph

end Engine

/-- Correlating by call sites has findings if the graph allows it, and both traces of each of them
change their routine once for each joint step, one after the other through the same calls. -/
theorem correlate_shareCalls {g : FlowGraph} (hg : g.Built) (pairs : PairConfig)
    (config : CorrelationConfig) (hpolicy : config.policy = .callSite) :
    (g.Nameable → pairs.Answers g →
      ∃ c fs, correlate g pairs config = .ok c ∧ c.findings = .ok fs) ∧
    ∀ c fs, correlate g pairs config = .ok c → c.findings = .ok fs → ∀ f ∈ fs,
      (routineChanges f.traceA).length = f.jointSteps ∧
      (routineChanges f.traceB).length = f.jointSteps ∧
      List.Forall₂ (ShareCall g c.flowA c.flowB) (routineChanges f.traceA)
        (routineChanges f.traceB) := by
  refine ⟨fun hname hpairs => hpairs.exists_findings hg.valid hname config,
    fun c fs hc hfs f hf => ?_⟩
  obtain rfl := eq_outcome_of_correlate hc
  obtain ⟨hmem, -, hA, hB, hjoint⟩ := Correlation.of_mem_findings hfs hf
  obtain ⟨hlength, hshare⟩ := (Engine.outcome_lineage hmem).shareCalls hg.valid hpolicy
  rw [hA, hB, hjoint]
  exact ⟨hlength, hshare.length_eq.symm.trans hlength, hshare⟩

/-- Both values go through one call into the routine where they come to their sinks. -/
theorem correlate_shareCalls_sample :
    let pairs := PairTable.config { sources := [(['s'], ['t'])], sinks := [(['k'], ['l'])] }
    let config : CorrelationConfig := { policy := .callSite, depth := 2, most := 20 }
    FlowGraph.sample.Built ∧ config.policy = .callSite ∧
    FlowGraph.sample.Nameable ∧ pairs.Answers .sample ∧
    ∃ c fs, correlate .sample pairs config = .ok c ∧ c.findings = .ok fs ∧
      (∃ f ∈ fs, f.jointSteps = 1) ∧ ∀ f ∈ fs,
        (routineChanges f.traceA).length = f.jointSteps ∧
        (routineChanges f.traceB).length = f.jointSteps ∧
        List.Forall₂ (ShareCall .sample c.flowA c.flowB) (routineChanges f.traceA)
          (routineChanges f.traceB) := by
  intro pairs config
  have hname : FlowGraph.sample.Nameable := ⟨by decide, by decide⟩
  have hpairs : pairs.Answers .sample := PairTable.answers _ _
  obtain ⟨hexists, hall⟩ := correlate_shareCalls FlowGraph.built_sample pairs config rfl
  obtain ⟨c, fs, hc, hfs⟩ := hexists hname hpairs
  refine ⟨FlowGraph.built_sample, rfl, hname, hpairs, c, fs, hc, hfs, ?_, hall c fs hc hfs⟩
  obtain rfl := eq_outcome_of_correlate hc
  let found := (Engine.of .sample pairs config).outcome
  have hcrosses : ∃ q ∈ found.quadruples.filter found.isFinding,
      ((found.chain q).filter (·.step == .joint)).length = 1 := by decide
  obtain ⟨q, hq, hjoint⟩ := hcrosses
  rw [← Correlation.quadruple_of_mapM hfs] at hq
  obtain ⟨f, hf, rfl⟩ := List.mem_map.mp hq
  obtain ⟨-, -, -, -, hsteps⟩ := Correlation.of_mem_findings hfs hf
  exact ⟨f, hf, hsteps.trans hjoint⟩

end Lockstep
