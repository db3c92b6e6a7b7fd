import Mathlib.Data.List.ProdSigma
import Mathlib.Order.Bounds.Basic
import Lockstep.Correlation.Finding
import Lockstep.Proofs.Correlation.Rules
import Lockstep.Proofs.Flow.Kept
/-!
What a correlation records when it has no limit. Recording is a search through the quadruples, so
that each one is recorded once, and those that are recorded are the least set that has all seeds and
that no rule leaves.
-/

set_option autoImplicit false

namespace Lockstep

open Search

/-- No step leads out of the path graph. -/
def PathGraph.Inward (p : PathGraph) : Prop := ∀ n, ∀ m ∈ p.successors n, m ∈ p.nodes

theorem PathGraph.inward_build {g : FlowGraph} (hg : g.Valid) (tag : FlowTag) (cfg : FlowConfig)
    (depth : Int) : (build tag g cfg depth).Inward :=
  fun _ _ hm => ((mem_successors_build hg).mp hm).2.1

namespace Progress

def frontier (p : Progress) : Frontier Quadruple :=
  ⟨p.expanded.map (·.quadruple), p.waiting.map (·.quadruple)⟩

theorem found_frontier (p : Progress) : p.frontier.found = p.records.map (·.quadruple) := by
  simp [frontier, Frontier.found, records]

theorem has_iff {p : Progress} {q : Quadruple} : p.has q = true ↔ q ∈ p.frontier.found := by
  simp [has, frontier, Frontier.found]

variable {p : Progress} {c : Quadruple × StepKind} {cs : List (Quadruple × StepKind)}

theorem record_unlimited (parent : Option Quadruple) (hp : p.halt = none)
    (hc : c.1.isAligned = true) :
    (record 0 parent p c).frontier = p.frontier.add c.1 ∧ (record 0 parent p c).halt = none := by
  unfold record Frontier.add
  by_cases hq : p.has c.1 = true
  · simp [hp, hq, has_iff.mp hq]
  · have hnew : c.1 ∉ p.frontier.found := fun h => hq (has_iff.mpr h)
    rw [if_neg hnew]
    simp [hp, hq, hc, isFull, frontier]

theorem recordAll_unlimited (parent : Option Quadruple) (hp : p.halt = none)
    (hcs : ∀ c ∈ cs, c.1.isAligned = true) :
    (cs.foldl (record 0 parent) p).frontier = (cs.map (·.1)).foldl Frontier.add p.frontier ∧
    (cs.foldl (record 0 parent) p).halt = none := by
  induction cs generalizing p with
  | nil => exact ⟨rfl, hp⟩
  | cons c cs ih =>
    obtain ⟨hfrontier, hhalt⟩ := record_unlimited parent hp (hcs c (by simp))
    have hrest := ih hhalt fun d hd => hcs d (by simp [hd])
    rw [hfrontier] at hrest
    exact hrest

end Progress

namespace Engine

variable {e : Engine} {p p' : Progress}

def next (e : Engine) (q : Quadruple) : List Quadruple := (e.expandWith e.advanceA q).map (·.1)

theorem mem_next {q r : Quadruple} : r ∈ e.next q ↔ ∃ k, e.Derives k q r := by
  simp [next, mem_expand]

theorem step_unlimited (hmost : e.config.most = 0) (hp : p.halt = none) :
    (Progress.step e e.advanceA p).map Progress.frontier = Frontier.visit e.next p.frontier := by
  unfold Progress.step
  cases hw : p.waiting with
  | nil => simp [hp, Frontier.visit, Progress.frontier, hw]
  | cons r rest =>
    have hall := Progress.recordAll_unlimited (some r.quadruple)
      (p := ⟨p.expanded ++ [r], rest, none⟩) rfl
      fun c (hc : c ∈ e.expandWith e.advanceA r.quadruple) => isAligned_of_mem_expand hc
    have hfrontier : (Progress.mk (p.expanded ++ [r]) rest none).frontier =
        ⟨p.frontier.visited ++ [r.quadruple], rest.map (·.quadruple)⟩ := by
      simp [Progress.frontier]
    have hwaiting : p.frontier.waiting = r.quadruple :: rest.map (·.quadruple) := by
      simp [Progress.frontier, hw]
    simp only [hp, hmost, Option.map_some, hall.1, hfrontier, Frontier.visit, hwaiting, next]

theorem step_halt (hmost : e.config.most = 0) :
    Preserves (Progress.step e e.advanceA) (fun p => p.halt = none) := by
  intro p p' hp hstep
  unfold Progress.step at hstep
  cases hw : p.waiting with
  | nil => simp [hp, hw] at hstep
  | cons r rest =>
    simp only [hp, hw, hmost, Option.some.injEq] at hstep
    rw [← hstep]
    exact (Progress.recordAll_unlimited _ rfl fun c hc => isAligned_of_mem_expand hc).2

theorem start_unlimited (hmost : e.config.most = 0) :
    e.start.frontier = e.seeds.foldl Frontier.add ⟨[], []⟩ ∧ e.start.halt = none := by
  have hall := Progress.recordAll_unlimited none (p := ⟨[], [], none⟩) rfl
    fun c (hc : c ∈ e.seeds.map (·, StepKind.seed)) => isAligned_of_mem_seeds hc
  simpa [start, hmost, Progress.frontier, Function.comp_def] using hall

def domain (e : Engine) : List Quadruple :=
  ((e.flowA.nodes ×ˢ e.flowB.nodes) ×ˢ (e.flowA.nodes ×ˢ e.flowB.nodes)).map fun p =>
    ⟨p.1.1, p.1.2, p.2.1, p.2.2⟩

theorem mem_domain {q : Quadruple} : q ∈ e.domain ↔
    q.source1 ∈ e.flowA.nodes ∧ q.source2 ∈ e.flowB.nodes ∧
    q.node1 ∈ e.flowA.nodes ∧ q.node2 ∈ e.flowB.nodes := by
  obtain ⟨s₁, s₂, n₁, n₂⟩ := q
  simp [domain, List.mem_product, and_assoc]

theorem length_domain_lt (e : Engine) : e.domain.length < e.capacity := by
  simp [domain, capacity, List.length_product]

theorem IsSeed.mem_domain {q : Quadruple} (h : e.IsSeed q) : q ∈ e.domain := by
  have hA := (List.mem_filter.mp h.sourceA).1
  have hB := (List.mem_filter.mp h.sourceB).1
  exact Engine.mem_domain.mpr ⟨h.start1 ▸ hA, h.start2 ▸ hB, hA, hB⟩

theorem Derives.mem_domain {k : StepKind} {q r : Quadruple} (hA : e.flowA.Inward)
    (hB : e.flowB.Inward) (h : e.Derives k q r) (hq : q ∈ e.domain) : r ∈ e.domain := by
  obtain ⟨h₁, h₂, h₃, h₄⟩ := Engine.mem_domain.mp hq
  rw [Engine.mem_domain]
  cases h with
  | advanceA hn _ => exact ⟨h₁, h₂, hA _ _ hn, h₄⟩
  | advanceB hn _ => exact ⟨h₁, h₂, h₃, hB _ _ hn⟩
  | joint hn hm _ _ _ => exact ⟨h₁, h₂, hA _ _ hn, hB _ _ hm⟩

theorem mem_domain_of_reached (hA : e.flowA.Inward) (hB : e.flowB.Inward) {q : Quadruple}
    (h : Reached e.next e.seeds q) : q ∈ e.domain := by
  refine Reached.induct (P := fun q => q ∈ e.domain) ?_ ?_ h
  · exact fun q hq => (mem_seeds.mp hq).mem_domain
  · intro q hq r hr
    obtain ⟨k, hk⟩ := mem_next.mp hr
    exact hk.mem_domain hA hB hq

/-- What a correlation without a limit comes to: every quadruple that can be derived, once. -/
theorem solve_unlimited (hA : e.flowA.Inward) (hB : e.flowB.Inward) (hmost : e.config.most = 0) :
    ∃ c, e.solve = .ok c ∧ c.pairs = e.pairs ∧ c.truncated = false ∧ c.quadruples.Nodup ∧
      ∀ q, q ∈ c.quadruples ↔ Reached e.next e.seeds q := by
  obtain ⟨hstart, hhalt⟩ := start_unlimited hmost
  have hsearch : Frontier.Searches e.next e.seeds e.start.frontier := hstart ▸ .of_addAll e.seeds
  have hview : (e.runWith e.advanceA).frontier =
      iterate (Frontier.visit e.next) e.capacity e.start.frontier :=
    iterate_simulates (step_halt hmost) (fun p hp => step_unlimited hmost hp) _ hhalt
  have hend : (e.runWith e.advanceA).halt = none := iterate_preserves (step_halt hmost) _ hhalt
  have hfound := iterate_preserves Frontier.visit_preserves e.capacity hsearch
  have hhalts := Frontier.visits_halt (fun q hq => (mem_seeds.mp hq).mem_domain)
    (fun q hq r hr => (mem_next.mp hr).elim fun _ h => h.mem_domain hA hB hq)
    hsearch (Nat.le_of_lt e.length_domain_lt)
  rw [← hview] at hfound hhalts
  refine ⟨⟨(e.runWith e.advanceA).records, e.pairs, e.flowA, e.flowB, false⟩, ?_, rfl, rfl, ?_, ?_⟩
  · simp [solve, solveWith, conclude, hend]
  · simpa [Correlation.quadruples, Progress.found_frontier] using hfound.nodup
  · intro q
    rw [← hfound.mem_found_iff hhalts, Progress.found_frontier, Correlation.quadruples]

/-- A set of quadruples that has all seeds and that no rule leaves. -/
structure Closed (e : Engine) (S : Set Quadruple) : Prop where
  seed : ∀ q, e.IsSeed q → q ∈ S
  derives : ∀ k q r, q ∈ S → e.Derives k q r → r ∈ S

theorem reached_isLeast (e : Engine) :
    IsLeast {S | e.Closed S} {q | Reached e.next e.seeds q} := by
  constructor
  · refine ⟨fun q hq => .of_mem (mem_seeds.mpr hq), fun k q r hq h => ?_⟩
    exact Reached.next hq (mem_next.mpr ⟨k, h⟩)
  · intro S hS q hq
    refine Reached.induct (P := fun q => q ∈ S) ?_ ?_ hq
    · exact fun s hs => hS.seed s (mem_seeds.mp hs)
    · intro s hs r hr
      obtain ⟨k, h⟩ := mem_next.mp hr
      exact hS.derives k s r hs h

/-- Correlating two path graphs of one flow graph records the least set of quadruples that has all
seeds and that no rule leaves, each of them once. -/
theorem solve_least {g : FlowGraph} (hg : g.Built) (tagA tagB : FlowTag) (cfgA cfgB : FlowConfig)
    (depthA depthB : Int) (pairs : PairConfig) (config : CorrelationConfig)
    (hmost : config.most = 0) :
    let e : Engine := ⟨.build tagA g cfgA depthA, .build tagB g cfgB depthB, pairs, config⟩
    ∃ c, e.solve = .ok c ∧ c.truncated = false ∧ c.quadruples.Nodup ∧
      IsLeast {S | e.Closed S} {q | q ∈ c.quadruples} := by
  intro e
  have hA : e.flowA.Inward := PathGraph.inward_build hg.valid tagA cfgA depthA
  have hB : e.flowB.Inward := PathGraph.inward_build hg.valid tagB cfgB depthB
  obtain ⟨c, hc, -, htrunc, hnodup, hmem⟩ := solve_unlimited hA hB hmost
  refine ⟨c, hc, htrunc, hnodup, ?_⟩
  simpa only [hmem] using e.reached_isLeast

/-- The two flows go through one call and come back, as often as they like. -/
theorem solve_least_sample :
    let cfg := FlowConfig.ofIds [['s'], ['t']] [['k'], ['l']] []
    let pairs : PairConfig :=
      { sourcePair := fun _ _ => some true, sinkPair := fun _ _ => some true
        barrier := fun _ _ => some false, describe := fun _ _ _ _ => .ok [] }
    let e : Engine := ⟨.build ⟨['A'], 0⟩ .sample cfg 2, .build ⟨['B'], 0⟩ .sample cfg 1, pairs,
      { policy := .callSite }⟩
    e.config.most = 0 ∧ ∃ c, e.solve = .ok c ∧ c.truncated = false ∧ c.quadruples.Nodup ∧
      IsLeast {S | e.Closed S} {q | q ∈ c.quadruples} :=
  ⟨rfl, solve_least FlowGraph.built_sample _ _ _ _ _ _ _ _ rfl⟩

end Engine
end Lockstep
