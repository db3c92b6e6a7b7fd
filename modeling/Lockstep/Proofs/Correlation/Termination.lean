import Mathlib.Algebra.BigOperators.Group.Finset.Basic
import Lockstep.Proofs.Correlation.Guard
import Lockstep.Proofs.Correlation.Limit
import Lockstep.Proofs.Search.Queue
/-!
Correlating two path graphs comes to an end. Programs with loops have path graphs with cycles, so it is
not the steps of the flows that run out: each quadruple is recorded once, and there are no more of them
than seeds times pairs of path nodes in one routine. The way back from a quadruple to its seed ends,
since parents were recorded before.
-/

set_option autoImplicit false

namespace Lockstep

open Search

namespace Progress

variable {e : Engine} {p p' : Progress} {c : Quadruple × StepKind} {cs : List (Quadruple × StepKind)}
  {parent : Option Quadruple} {most : Int}

def queue (p : Progress) : List Quadruple := p.waiting.map (·.quadruple)

def dequeued (p : Progress) : List Quadruple := p.expanded.map (·.quadruple)

theorem dequeued_append_queue (p : Progress) : p.dequeued ++ p.queue = p.quadruples := by
  simp [dequeued, queue, quadruples, records]

theorem Recording.waiting (h : Recording parent c p p') : p.waiting <+: p'.waiting := by
  cases h with
  | ended _ => exact List.prefix_refl _
  | known _ => exact List.prefix_refl _
  | full _ => exact List.prefix_refl _
  | added _ _ _ => exact List.prefix_append _ _
  | refused _ _ => exact List.prefix_refl _

theorem recordAll_waiting (p : Progress) : p.waiting <+: (cs.foldl (record most parent) p).waiting := by
  induction cs generalizing p with
  | nil => exact List.prefix_refl _
  | cons c cs ih => exact (recording_record most parent c p).waiting.trans (ih _)

theorem step_takes (e : Engine) (advance : Quadruple → List Quadruple) :
    Takes (Progress.step e advance) queue dequeued := by
  intro p p' hstep
  obtain ⟨r, rest, -, hw, rfl⟩ := step_eq_some hstep
  -- what is recorded now goes to the end of what was left to wait
  have hexpanded : ((e.expandWith advance r.quadruple).foldl
      (record e.config.most (some r.quadruple)) (p.taken r rest)).expanded = p.expanded ++ [r] :=
    (recordAll_extends _).expanded
  have hwaiting : rest <+: ((e.expandWith advance r.quadruple).foldl
      (record e.config.most (some r.quadruple)) (p.taken r rest)).waiting :=
    recordAll_waiting (p.taken r rest)
  obtain ⟨new, hnew⟩ := hwaiting
  refine ⟨r.quadruple, rest.map (·.quadruple), new.map (·.quadruple), by simp [queue, hw], ?_, ?_⟩
  · rw [queue, ← hnew, List.map_append]
  · rw [dequeued, hexpanded, List.map_append]
    rfl

end Progress

/-- The loop that goes from a quadruple to its parent, and on from there up to a seed: the records
that it meets. -/
inductive Climbs (rs : List Record) : Option Quadruple → List Record → Prop
  | root : Climbs rs none []
  | up {q : Quadruple} {r : Record} {above : List Record} :
      rs.find? (·.quadruple == q) = some r → Climbs rs r.parent above →
      Climbs rs (some q) (r :: above)

theorem find?_of_nodup {rs : List Record} {r : Record} (h : (rs.map (·.quadruple)).Nodup)
    (hr : r ∈ rs) : rs.find? (·.quadruple == r.quadruple) = some r := by
  induction rs with
  | nil => simp at hr
  | cons s rs ih =>
    obtain ⟨hs, hrest⟩ := List.nodup_cons.mp h
    rcases List.mem_cons.mp hr with rfl | hr
    · simp
    · have hne : (s.quadruple == r.quadruple) = false := by
        rw [beq_eq_false_iff_ne]
        exact fun heq => hs (List.mem_map.mpr ⟨r, hr, heq.symm⟩)
      rw [List.find?_cons, hne]
      exact ih hrest hr

/-- The path nodes in a routine. -/
def PathGraph.nodesIn (p : PathGraph) (r : Routine) : List PathNode :=
  p.nodes.filter (·.routine == r)

namespace Engine

open Correlation

variable {e : Engine} {older rs : List Record} {q : Quadruple}

/-- From a recorded quadruple the loop leads up the chain, latest first, and ends. -/
theorem Grown.climbs (h : e.Grown older) (hnodup : (rs.map (·.quadruple)).Nodup)
    (hsub : older ⊆ rs) (hq : q ∈ older.map (·.quadruple)) :
    Climbs rs (some q) (chainIn older q).reverse := by
  -- the loop looks among all records, but finds a parent among those that were recorded before
  induction h generalizing q with
  | nil => simp at hq
  | @cons older r _ _ horigin ih =>
    obtain ⟨hr, holder⟩ := List.cons_subset.mp hsub
    rw [chainIn]
    by_cases heq : r.quadruple = q
    · subst heq
      have hfind := find?_of_nodup hnodup hr
      cases horigin with
      | seed _ => simpa using Climbs.up hfind .root
      | derived hp _ =>
        simp only [if_true, List.reverse_append, List.reverse_singleton]
        exact .up hfind (ih holder hp)
    · rw [if_neg heq]
      refine ih holder ?_
      rcases List.mem_cons.mp hq with hq | hq
      · exact absurd hq.symm heq
      · exact hq

theorem chain_climbs (e : Engine) (hq : q ∈ e.outcome.quadruples) :
    Climbs e.outcome.records (some q) (e.outcome.chain q).reverse := by
  refine e.outcome_grown.climbs e.nodup_outcome ?_ ?_
  · exact (List.reverse_perm _).subset
  · rw [List.map_reverse, List.mem_reverse]
    exact hq

/-- The routines that flow A goes through. -/
def routines (e : Engine) : List Routine := e.flowA.nodes.map (·.routine)

/-- The pairs of path nodes where the two flows can meet: both in one routine. -/
def meetings (e : Engine) : List (PathNode × PathNode) :=
  e.routines.dedup.flatMap fun r => e.flowA.nodesIn r ×ˢ e.flowB.nodesIn r

theorem mem_meetings {n m : PathNode} : (n, m) ∈ e.meetings ↔
    n ∈ e.flowA.nodes ∧ m ∈ e.flowB.nodes ∧ n.routine = m.routine := by
  simp only [meetings, routines, PathGraph.nodesIn, List.mem_flatMap, List.mem_dedup, List.mem_map,
    List.mem_product, List.mem_filter, beq_iff_eq]
  constructor
  · rintro ⟨r, -, ⟨hA, hr⟩, hB, hr'⟩
    exact ⟨hA, hB, hr.trans hr'.symm⟩
  · rintro ⟨hA, hB, heq⟩
    exact ⟨n.routine, ⟨n, hA, rfl⟩, ⟨hA, rfl⟩, hB, heq.symm⟩

theorem length_meetings (e : Engine) : e.meetings.length =
    ∑ r ∈ e.routines.toFinset, (e.flowA.nodesIn r).length * (e.flowB.nodesIn r).length := by
  have hroutines : e.routines.toFinset = e.routines.dedup.toFinset := by
    ext r
    simp
  rw [meetings, List.length_flatMap, hroutines, List.sum_toFinset _ (List.nodup_dedup _)]
  simp only [List.length_product]

/-- A quadruple is told by the seed that it comes from and by where its flows have met. -/
theorem length_outcome_le (hdomain : e.outcome.quadruples ⊆ e.domain) :
    e.outcome.quadruples.length ≤ e.seeds.length * e.meetings.length := by
  have hsub : e.outcome.quadruples ⊆ (e.seeds ×ˢ e.meetings).map fun p =>
      ⟨p.1.node1, p.1.node2, p.2.1, p.2.2⟩ := by
    intro q hq
    obtain ⟨-, -, hA, hB⟩ := mem_domain.mp (hdomain hq)
    have hlineage := outcome_lineage hq
    have hroutine : q.node1.routine = q.node2.routine := by
      simpa [Quadruple.isAligned] using hlineage.isAligned
    refine List.mem_map.mpr ⟨(⟨q.source1, q.source2, q.source1, q.source2⟩, q.node1, q.node2), ?_, rfl⟩
    exact List.mem_product.mpr
      ⟨mem_seeds.mpr hlineage.isSeed, mem_meetings.mpr ⟨hA, hB, hroutine⟩⟩
  have hlength := length_le_of_nodup e.nodup_outcome fun q hq => hsub hq
  rwa [List.length_map, List.length_product] at hlength

/-- Where there is no step left nothing waits, or recording ended before at the limit. -/
theorem outcome_stops (hend : Progress.step e e.advanceA (e.runWith e.advanceA) = none) :
    (e.runWith e.advanceA).queue = [] ∨ e.outcome.truncated = true := by
  have hline := e.run_sound.inLine
  cases hhalt : (e.runWith e.advanceA).halt with
  | none =>
    cases hw : (e.runWith e.advanceA).waiting with
    | nil => exact Or.inl (by simp [Progress.queue, hw])
    | cons r rest => simp [Progress.step_waiting e.advanceA hhalt hw] at hend
  | some h =>
    cases h with
    | full => exact Or.inr (by simp [outcome, hhalt])
    | misaligned m => exact absurd hhalt (hline m)

/-- The loop comes to its end, and these are its progress and its result there. The queue is empty
then, unless recording ended before. A quadruple is put into the queue when it is recorded, so once,
and is taken from it at most once; no more are recorded than seeds times pairs in one routine. And
from each one the loop over parents leads back to its seed. -/
structure Ends (e : Engine) (p : Progress) (c : Correlation) : Prop where
  run : ∃ put, QueueRun (Progress.step e e.advanceA) Progress.queue e.start p.dequeued put p ∧
    e.start.queue ++ put = c.quadruples
  stops : p.queue = [] ∨ c.truncated = true
  once : c.quadruples.Nodup
  dequeued : p.dequeued <+: c.quadruples
  bound : c.quadruples.length ≤ e.seeds.length *
    ∑ r ∈ e.routines.toFinset, (e.flowA.nodesIn r).length * (e.flowB.nodesIn r).length
  climbs : ∀ q ∈ c.quadruples, Climbs c.records (some q) (c.chain q).reverse
  chain : ∀ q ∈ c.quadruples, (c.chain q).length ≤ c.records.length

/-- Correlating the path graphs of any two flows has a result, whatever the pairs, the policy and the
limit. -/
theorem solve_terminates {gA gB : FlowGraph} (hgA : gA.Built) (hgB : gB.Built) (tagA tagB : FlowTag)
    (cfgA cfgB : FlowConfig) (depthA depthB : Int) (pairs : PairConfig)
    (config : CorrelationConfig) :
    let e : Engine := ⟨.build tagA gA cfgA depthA, .build tagB gB cfgB depthB, pairs, config⟩
    ∃ p c, e.solve = .ok c ∧ e.Ends p c := by
  intro e
  have hA : e.flowA.Inward := PathGraph.inward_build hgA.valid tagA cfgA depthA
  have hB : e.flowB.Inward := PathGraph.inward_build hgB.valid tagB cfgB depthB
  have hadvance : ∀ q ∈ e.domain, e.advanceA q ⊆ e.domain := fun q hq r hr =>
    (mem_advanceA.mp hr).mem_domain hA hB hq
  have hguarded := run_guarded hA hB hadvance
  have hend := run_ends hA hB hadvance
  obtain ⟨put, hrun⟩ := (Progress.step_takes e e.advanceA).exists_run
    (by simp [Progress.dequeued, expanded_start]) hend
  refine ⟨e.runWith e.advanceA, e.outcome, e.solve_eq_outcome, ⟨put, hrun, ?_⟩, ?_, e.nodup_outcome,
    ?_, ?_, fun q hq => e.chain_climbs hq, fun q _ => (e.chain_sublist q).length_le⟩
  · exact hrun.conserves.trans (Progress.dequeued_append_queue _)
  · exact outcome_stops hend
  · exact ⟨_, Progress.dequeued_append_queue _⟩
  · rw [← e.length_meetings]
    exact length_outcome_le hguarded.domain

/-- Flow A of the sample goes round in a loop. There are nine quadruples, and no more could there be:
one seed, and nine pairs of path nodes in one routine. -/
theorem solve_terminates_sample :
    FlowGraph.sample.Built ∧ (∃ n ∈ sample.flowA.nodes, n ∈ sample.flowA.successors n) ∧
    ∃ p c, sample.solve = .ok c ∧ sample.Ends p c ∧ c.truncated = false ∧ p.dequeued = c.quadruples ∧
      c.quadruples.length = 9 ∧ sample.seeds.length = 1 ∧ ∑ r ∈ sample.routines.toFinset,
        (sample.flowA.nodesIn r).length * (sample.flowB.nodesIn r).length = 9 := by
  have hbuilt := FlowGraph.built_sample
  obtain ⟨p, c, hsolve, hends⟩ := solve_terminates hbuilt hbuilt ⟨['A'], 0⟩ ⟨['B'], 0⟩
    (.ofIds [['s']] [['k']] []) (.ofIds [['t']] [['l']] []) 1 1 sample.pairs sample.config
  obtain rfl : sample.outcome = c := Except.ok.inj (sample.solve_eq_outcome.symm.trans hsolve)
  have htruncated : sample.outcome.truncated = false := by decide
  have hqueue : p.queue = [] := hends.stops.resolve_right (by simp [htruncated])
  obtain ⟨put, hrun, hput⟩ := hends.run
  have hall : p.dequeued = sample.outcome.quadruples := by
    rw [← hput, hrun.conserves, hqueue, List.append_nil]
  exact ⟨hbuilt, by decide, p, _, hsolve, hends, htruncated, hall, by decide, by decide, by decide⟩

end Engine
end Lockstep
