import Lockstep.Proofs.Correlation.Guard
import Lockstep.Proofs.Correlation.Limit
import Lockstep.Proofs.Correlation.Traces
/-!
Two flows stay in line. A correlation refuses nothing, looks up no edge that is not there, and has
both flows of each quadruple in one routine, which they leave by joint steps only. Were flow A to
advance in another way, the guard would still keep out what is not in line.
-/

set_option autoImplicit false

namespace Lockstep

/-- Each step of a path graph has its edge. -/
theorem PathGraph.exists_edge {p : PathGraph} {n m : PathNode} (h : m ∈ p.successors n) :
    ∃ d, p.edge? n m = some d := by
  obtain ⟨l, hl, hsource, htarget⟩ := mem_successors.mp h
  have hfound : (p.links.find? fun l => l.source == n && l.target == m).isSome = true :=
    List.find?_isSome.mpr ⟨l, hl, by simp [hsource, htarget]⟩
  obtain ⟨l', hl'⟩ := Option.isSome_iff_exists.mp hfound
  exact ⟨l'.edge, by rw [edge?, hl', Option.map_some]⟩

namespace Engine

variable {e : Engine} {k : StepKind} {p q : Quadruple} {r : Record} {rs : List Record}

/-- Where the flows of a record are, next to those of its parent. If they have changed their routine
at all, they did so at once. -/
structure InLine (e : Engine) (c : Correlation) (r : Record) : Prop where
  aligned : r.quadruple.node1.routine = r.quadruple.node2.routine
  seed : r.parent = none → r.step = .seed
  recorded : ∀ p, r.parent = some p → p ∈ c.quadruples
  joint : ∀ p, r.parent = some p →
    (r.step = .joint ↔ r.quadruple.node1.routine ≠ p.node1.routine)
  together : ∀ p, r.parent = some p → r.step = .joint →
    r.quadruple.node1 ∈ e.flowA.successors p.node1 ∧
    r.quadruple.node2 ∈ e.flowB.successors p.node2 ∧
    r.quadruple.node1.routine ≠ p.node1.routine ∧ r.quadruple.node2.routine ≠ p.node2.routine

theorem Derives.steps_joint (h : e.Derives .joint p q) (side : Side) :
    q.node side ∈ (e.flow side).successors (p.node side) := by
  rcases h.oneSide side with ⟨hstays, -⟩ | ⟨-, hstep⟩
  · cases side <;> cases hstays
  · exact hstep

theorem Grown.origin (h : e.Grown rs) (hr : r ∈ rs) : e.Origin (rs.map (·.quadruple)) r := by
  induction h with
  | nil => simp at hr
  | cons _ _ horigin ih =>
    rcases List.mem_cons.mp hr with rfl | hr
    · exact horigin.mono (by simp)
    · exact (ih hr).mono (by simp)

theorem outcome_inLine (hr : r ∈ e.outcome.records) : e.InLine e.outcome r := by
  have horigin := e.outcome_grown.origin (List.mem_reverse.mpr hr)
  rw [List.map_reverse] at horigin
  have haligned : r.quadruple.node1.routine = r.quadruple.node2.routine := by
    simpa [Quadruple.isAligned] using horigin.isAligned
  cases horigin with
  | seed _ => exact ⟨haligned, fun _ => rfl, by simp, by simp, by simp⟩
  | @derived p q k hp hd =>
    have hmem : p ∈ e.outcome.quadruples := List.mem_reverse.mp hp
    have hline := (outcome_lineage hmem).isAligned
    have hA := hd.routine_eq_iff hline .a
    have hB := hd.routine_eq_iff hline .b
    refine ⟨haligned, by simp, ?_, ?_, ?_⟩
    · rintro p ⟨⟩
      exact hmem
    · rintro p ⟨⟩
      exact not_ne_iff.symm.trans (not_congr (hA.symm.trans eq_comm))
    · rintro p ⟨⟩ hk
      obtain rfl : k = .joint := hk
      exact ⟨hd.steps_joint .a, hd.steps_joint .b, fun h => hA.mp h.symm rfl,
        fun h => hB.mp h.symm rfl⟩

/-- Correlating two path graphs has a result, in which all records are in line, and each edge that a
rule looks up is there. If flow A is made to advance in any other way between path nodes, the guard
still lets nothing pass that is out of line. -/
theorem solve_inLine {gA gB : FlowGraph} (hgA : gA.Built) (hgB : gB.Built) (tagA tagB : FlowTag)
    (cfgA cfgB : FlowConfig) (depthA depthB : Int) (pairs : PairConfig)
    (config : CorrelationConfig) :
    let e : Engine := ⟨.build tagA gA cfgA depthA, .build tagB gB cfgB depthB, pairs, config⟩
    (∃ c, e.solve = .ok c ∧ ∀ r ∈ c.records, e.InLine c r) ∧
    (∀ q : Quadruple, ∀ n₁ ∈ e.flowA.successors q.node1, ∀ n₂ ∈ e.flowB.successors q.node2,
      (∃ d, e.flowA.edge? q.node1 n₁ = some d) ∧ ∃ d, e.flowB.edge? q.node2 n₂ = some d) ∧
    ∀ advance : Quadruple → List Quadruple, (∀ q ∈ e.domain, advance q ⊆ e.domain) →
      e.Guards advance := by
  intro e
  have hA : e.flowA.Inward := PathGraph.inward_build hgA.valid tagA cfgA depthA
  have hB : e.flowB.Inward := PathGraph.inward_build hgB.valid tagB cfgB depthB
  exact ⟨⟨e.outcome, e.solve_eq_outcome, fun _ hr => outcome_inLine hr⟩,
    fun _ _ h₁ _ h₂ => ⟨PathGraph.exists_edge h₁, PathGraph.exists_edge h₂⟩,
    fun _ hadvance => guards hA hB hadvance⟩

/-- Both flows of the sample graph are in line. Were flow A to advance to one quadruple out of line,
wherever it is, that one would be refused. -/
theorem solve_inLine_sample :
    FlowGraph.sample.Built ∧ (∃ c, sample.solve = .ok c ∧ ∀ r ∈ c.records, sample.InLine c r) ∧
    ∃ bad ∈ sample.domain, bad.isAligned = false ∧
      sample.solveWith (fun _ => [bad]) = .error ⟨bad, .advanceA⟩ := by
  have hbuilt := FlowGraph.built_sample
  obtain ⟨hsolve, -, hguard⟩ := solve_inLine hbuilt hbuilt ⟨['A'], 0⟩ ⟨['B'], 0⟩
    (.ofIds [['s']] [['k']] []) (.ofIds [['t']] [['l']] []) 1 1 sample.pairs sample.config
  have hbad : ∃ bad ∈ sample.domain, bad.isAligned = false ∧
      (sample.solveWith fun _ => [bad]).isOk = false := by decide
  obtain ⟨bad, hdomain, hout, hfails⟩ := hbad
  refine ⟨hbuilt, hsolve, bad, hdomain, hout, ?_⟩
  have hyields : ∀ q ∈ sample.domain, [bad] ⊆ sample.domain := fun _ _ => by simpa using hdomain
  have hguards : sample.Guards fun _ => [bad] := hguard _ hyields
  rcases hguards.comes with ⟨m, hm, hyielded⟩ | ⟨c, hc, -⟩
  · obtain ⟨q, -, hq⟩ := hyielded.yielded
    obtain rfl : m.quadruple = bad := List.mem_singleton.mp hq
    rw [hm, ← hyielded.step]
  · simp [hc, Except.isOk, Except.toBool] at hfails

end Engine
end Lockstep
