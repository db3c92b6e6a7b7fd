import Mathlib.Algebra.BigOperators.Ring.Finset
import Lockstep.Proofs.Flow.Exactness
import Lockstep.Proofs.Search.Distance
import Lockstep.Proofs.Search.Queue
/-!
Building a path graph comes to an end. A program that calls itself opens calls without end, but of a
context only the last sites are kept, so there are no more path nodes than nodes of the graph times
words over its call sites that are no longer than the bound. The forward search takes each path node
that it discovers from its queue once, and the backward search each one that is kept.
-/

set_option autoImplicit false

namespace Lockstep

open Search

theorem length_wordsUpTo {α : Type} (xs : List α) (n : Nat) :
    (wordsUpTo xs n).length = ∑ i ∈ Finset.range (n + 1), xs.length ^ i := by
  induction n with
  | zero => simp [wordsUpTo]
  | succ n ih =>
    calc (wordsUpTo xs (n + 1)).length
        = 1 + xs.length * ∑ i ∈ Finset.range (n + 1), xs.length ^ i := by
          rw [length_wordsUpTo_succ, ih]
      _ = ∑ i ∈ Finset.range (n + 1), xs.length ^ (i + 1) + xs.length ^ 0 := by
          rw [Finset.mul_sum, Nat.add_comm]
          simp only [Nat.pow_succ', Nat.pow_zero]
      _ = ∑ i ∈ Finset.range (n + 1 + 1), xs.length ^ i := (Finset.sum_range_succ' _ _).symm

namespace Search.Frontier

variable {α : Type} [DecidableEq α] {next : α → List α}

theorem visit_takes (next : α → List α) :
    Takes (Frontier.visit next) (·.waiting) (·.visited) := by
  intro f g hg
  obtain ⟨x, rest, hw, rfl, -⟩ := found_visit hg
  obtain ⟨new, heq, -⟩ := addAll_eq ⟨f.visited ++ [x], rest⟩ (next x)
  rw [heq]
  exact ⟨x, rest, new, hw, rfl, rfl⟩

/-- At the end all that was found has been visited. -/
theorem eq_of_visit_eq_none {f : Frontier α} (h : visit next f = none) : f = ⟨f.found, []⟩ := by
  obtain ⟨visited, waiting⟩ := f
  cases waiting with
  | nil => simp [found]
  | cons x rest => simp [visit] at h

end Search.Frontier

namespace Exploration

variable {tag : FlowTag} {g : FlowGraph} {cfg : FlowConfig} {depth : Int} {x y : Exploration}
  {n m : PathNode} {e : FlowEdge} {es : List FlowEdge}

/-- What has been visited stays so, and what waits keeps its place. -/
structure Extends (x y : Exploration) : Prop where
  visited : y.visited = x.visited
  waiting : x.waiting <+: y.waiting

theorem Extends.refl (x : Exploration) : x.Extends x := ⟨rfl, List.prefix_refl _⟩

theorem Extends.trans {z : Exploration} (h : x.Extends y) (h' : y.Extends z) : x.Extends z :=
  ⟨h'.visited.trans h.visited, h.waiting.trans h'.waiting⟩

theorem extends_link (x : Exploration) : x.Extends (x.link n m e) := by
  unfold link
  split
  · exact .refl x
  · exact ⟨rfl, List.prefix_refl _⟩

theorem extends_reach (node : FlowNode) (c : CallString) (x : Exploration) :
    x.Extends (reach tag cfg n e node c x) := by
  unfold reach
  split
  · exact extends_link x
  · have hfound : x.Extends { x with
        waiting := x.waiting ++ [discover tag cfg x.nodes.length node c false] } :=
      ⟨rfl, List.prefix_append _ _⟩
    exact hfound.trans (extends_link _)

theorem extends_follow (x : Exploration) : x.Extends (follow tag g cfg n x e) := by
  unfold follow
  split
  · exact .refl x
  · split
    · exact .refl x
    · split
      · exact .refl x
      · exact extends_reach _ _ x

theorem extends_followAll (x : Exploration) : x.Extends (es.foldl (follow tag g cfg n) x) := by
  induction es generalizing x with
  | nil => exact .refl x
  | cons e es ih => exact (extends_follow x).trans (ih _)

theorem extends_expand (x : Exploration) : x.Extends (expand tag g cfg n x) := by
  unfold expand
  split
  · exact .refl x
  · exact extends_followAll x

theorem visit_takes (tag : FlowTag) (g : FlowGraph) (cfg : FlowConfig) :
    Takes (visit tag g cfg) (·.waiting) (·.visited) := by
  intro x y hy
  obtain ⟨n, rest, hw, rfl⟩ := visit_eq_some hy
  have hext : Extends { x with visited := x.visited ++ [n], waiting := rest }
      (expand tag g cfg n { x with visited := x.visited ++ [n], waiting := rest }) :=
    extends_expand _
  obtain ⟨new, hnew⟩ := hext.waiting
  exact ⟨n, rest, new, hw, hnew.symm, hext.visited⟩

theorem waiting_complete (hg : g.Valid) : (complete tag g cfg depth).waiting = [] := by
  have hnodes : (complete tag g cfg depth).visited = (complete tag g cfg depth).nodes :=
    visited_complete hg
  simpa [nodes] using hnodes

/-- The forward search from its sources on: its queue empties after each path node that was ever put
there has been taken from it once. They are no more than nodes with call strings within the bound. -/
structure Exhausts (tag : FlowTag) (g : FlowGraph) (cfg : FlowConfig) (depth : Int)
    (x : Exploration) : Prop where
  run : ∃ put, QueueRun (visit tag g cfg) (·.waiting) (start tag cfg depth g) x.nodes put x ∧
    (start tag cfg depth g).waiting ++ put = x.nodes
  waiting : x.waiting = []
  once : x.nodes.Nodup
  length : ∀ n ∈ x.nodes, n.context.sites.length ≤ depth.toNat
  site : ∀ n ∈ x.nodes, ∀ s ∈ n.context.sites, s ∈ callSites g
  bound : x.nodes.length ≤
    g.nodes.length * ∑ i ∈ Finset.range (depth.toNat + 1), (callSites g).toFinset.card ^ i

theorem complete_exhausts (hg : g.Valid) :
    Exhausts tag g cfg depth (complete tag g cfg depth) := by
  have hsettled : Settled tag g cfg depth (complete tag g cfg depth) := complete_settled hg
  have hend : visit tag g cfg (complete tag g cfg depth) = none := complete_halts hg
  refine ⟨?_, waiting_complete hg, hsettled.nodup, ?_, ?_, ?_⟩
  · rw [complete, exhaust_eq_iterate] at hend
    obtain ⟨put, hrun⟩ := (visit_takes tag g cfg).exists_run rfl hend
    rw [← exhaust_eq_iterate, ← complete, visited_complete hg] at hrun
    exact ⟨put, hrun, by simpa [waiting_complete hg] using hrun.conserves⟩
  · exact fun n hn => (hsettled.arrived n hn).arrives.fits.length
  · exact fun n hn => (hsettled.arrived n hn).arrives.fits.site
  · have hbound : (complete tag g cfg depth).nodes.length ≤
        g.nodes.length * (wordsUpTo (callSites g).dedup depth.toNat).length :=
      hsettled.length_le fun _ => List.mem_dedup.mpr
    rwa [length_wordsUpTo, ← List.card_toFinset] at hbound

/-- The backward search from the sinks on: its queue empties after each path node that is kept has
been taken from it once. -/
structure Retraces (x : Exploration) (p : PathGraph) : Prop where
  run : ∃ put, QueueRun (Frontier.visit x.before) (·.waiting) ⟨[], x.nodes.filter (·.isSink)⟩
    x.alive put ⟨x.alive, []⟩ ∧ x.nodes.filter (·.isSink) ++ put = x.alive
  kept : x.alive.Perm p.nodes
  once : p.nodes.Nodup

theorem alive_run (hnodes : x.nodes.Nodup) (hbefore : ∀ m ∈ x.nodes, ∀ k ∈ x.before m, k ∈ x.nodes) :
    x.alive.Nodup ∧ ∃ put, QueueRun (Frontier.visit x.before) (·.waiting)
      ⟨[], x.nodes.filter (·.isSink)⟩ x.alive put ⟨x.alive, []⟩ ∧
      x.nodes.filter (·.isSink) ++ put = x.alive := by
  have hsinks : ∀ k ∈ x.nodes.filter (·.isSink), k ∈ x.nodes := fun _ hk => (List.mem_filter.mp hk).1
  have hstart : Frontier.Searches x.before (x.nodes.filter (·.isSink))
      ⟨[], x.nodes.filter (·.isSink)⟩ := .of_nodup (hnodes.filter _)
  have hend := Frontier.visits_halt hsinks hbefore hstart (Nat.le_refl _)
  obtain ⟨put, hrun⟩ := (Frontier.visit_takes x.before).exists_run rfl hend
  have halive : iterate (Frontier.visit x.before) x.nodes.length ⟨[], x.nodes.filter (·.isSink)⟩ =
      ⟨x.alive, []⟩ := Frontier.eq_of_visit_eq_none hend
  rw [halive] at hrun
  exact ⟨(iterate_preserves Frontier.visit_preserves _ hstart).nodup, put, hrun,
    by simpa using hrun.conserves⟩

theorem complete_retraces (hg : g.Valid) :
    (complete tag g cfg depth).Retraces (.build tag g cfg depth) := by
  have hbefore : ∀ m ∈ (complete tag g cfg depth).nodes,
      ∀ k ∈ (complete tag g cfg depth).before m, k ∈ (complete tag g cfg depth).nodes := by
    intro m _ k hk
    obtain ⟨l, hl, rfl, -⟩ := mem_before.mp hk
    exact ((complete_link_iff hg).mp hl).1
  obtain ⟨halive, hrun⟩ := alive_run (complete_settled hg).nodup hbefore
  have hkept : (PathGraph.build tag g cfg depth).nodes.Nodup := PathGraph.nodup_nodes_build hg
  refine ⟨hrun, (List.perm_ext_iff_of_nodup halive hkept).mpr fun n => ?_, hkept⟩
  rw [mem_alive hg, PathGraph.mem_nodes_build hg]

end Exploration

namespace PathGraph

open Exploration

/-- Building the path graph of any graph, flow and bound comes to an end: both searches empty their
queues, and the path nodes that are discovered on the way are only so many. -/
theorem build_terminates {g : FlowGraph} (hg : g.Built) (tag : FlowTag) (cfg : FlowConfig)
    (depth : Int) :
    let x := complete tag g cfg depth
    Exhausts tag g cfg depth x ∧ x.Retraces (build tag g cfg depth) ∧
    (build tag g cfg depth).explored = x.nodes.length ∧
    ((∀ e ∈ g.edges, e.callSite.isScalar = true) →
      build? tag g cfg depth = some (build tag g cfg depth)) :=
  ⟨complete_exhausts hg.valid, complete_retraces hg.valid, rfl, build?_eq_some hg.valid⟩

/-- A routine calls itself without end. With two call sites and a bound of two sites there are seven
contexts. -/
theorem build_terminates_sample :
    let cfg := FlowConfig.ofIds [['s'], ['t']] [['k'], ['l']] []
    let x := complete ⟨['A'], 0⟩ .sample cfg 2
    let p := build ⟨['A'], 0⟩ .sample cfg 2
    FlowGraph.sample.Built ∧ (∀ e ∈ FlowGraph.sample.edges, e.callSite.isScalar = true) ∧
      Exhausts ⟨['A'], 0⟩ .sample cfg 2 x ∧ x.Retraces p ∧ p.explored ≤ 6 * 7 ∧
      build? ⟨['A'], 0⟩ .sample cfg 2 = some p := by
  intro cfg x p
  have hsites : ∀ e ∈ FlowGraph.sample.edges, e.callSite.isScalar = true := by decide
  obtain ⟨hforward, hbackward, hcount, hbuild⟩ :=
    build_terminates FlowGraph.built_sample ⟨['A'], 0⟩ cfg 2
  have hcontexts : ∑ i ∈ Finset.range ((2 : Int).toNat + 1),
      (callSites FlowGraph.sample).toFinset.card ^ i = 7 := by decide
  have hbound := hforward.bound
  rw [hcontexts] at hbound
  exact ⟨FlowGraph.built_sample, hsites, hforward, hbackward, hcount.trans_le hbound, hbuild hsites⟩

end PathGraph
end Lockstep
