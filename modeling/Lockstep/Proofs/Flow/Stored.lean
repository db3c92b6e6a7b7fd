import Lockstep.Proofs.Flow.Kept
import Lockstep.Proofs.Flow.Store
/-!
The path graph that the tables hold in the end is the one that is built. Links are discovered source
after source, so that the rows of a table, one after the other, give them back in their order; and
what is alive in the tables is what is alive in the exploration.
-/

set_option autoImplicit false

namespace Lockstep

namespace Exploration

variable {tag : FlowTag} {g : FlowGraph} {cfg : FlowConfig} {depth : Int} {x y z : Exploration}
  {n m : PathNode} {e : FlowEdge} {es : List FlowEdge}

/-- The second exploration has further links, all of them from this path node. -/
def LinksFrom (n : PathNode) (x y : Exploration) : Prop :=
  ∃ new, y.links = x.links ++ new ∧ ∀ l ∈ new, l.source = n

theorem LinksFrom.refl (n : PathNode) (x : Exploration) : LinksFrom n x x := ⟨[], by simp⟩

theorem LinksFrom.trans (h : LinksFrom n x y) (h' : LinksFrom n y z) : LinksFrom n x z := by
  obtain ⟨new, hy, hnew⟩ := h
  obtain ⟨new', hz, hnew'⟩ := h'
  refine ⟨new ++ new', by rw [hz, hy, List.append_assoc], fun l hl => ?_⟩
  exact (List.mem_append.mp hl).elim (hnew l) (hnew' l)

theorem linksFrom_link (x : Exploration) : LinksFrom n x (x.link n m e) := by
  unfold link
  split
  · exact .refl n x
  · exact ⟨[⟨n, m, e⟩], rfl, by simp⟩

theorem linksFrom_follow (x : Exploration) : LinksFrom n x (follow tag g cfg n x e) := by
  unfold follow reach
  split
  · exact .refl n x
  · split
    · exact .refl n x
    · split
      · exact .refl n x
      · split
        · exact linksFrom_link x
        · exact linksFrom_link _

theorem linksFrom_expand (x : Exploration) : LinksFrom n x (expand tag g cfg n x) := by
  have hall (es : List FlowEdge) (x : Exploration) :
      LinksFrom n x (es.foldl (follow tag g cfg n) x) := by
    induction es generalizing x with
    | nil => exact .refl n x
    | cons e es ih => exact (linksFrom_follow x).trans (ih _)
  unfold expand
  split
  · exact .refl n x
  · exact hall _ x

/-- The links stand in groups, one for each of these path nodes. -/
def Grouped (ns : List PathNode) (ls : List Link) : Prop :=
  ls = ns.flatMap fun n => ls.filter (·.source == n)

theorem Grouped.append {ns : List PathNode} {ls new : List Link} (h : Grouped ns ls)
    (hn : n ∉ ns) (hls : ∀ l ∈ ls, l.source ∈ ns) (hnew : ∀ l ∈ new, l.source = n) :
    Grouped (ns ++ [n]) (ls ++ new) := by
  have hold : (ns.flatMap fun m => (ls ++ new).filter (·.source == m)) = ls := by
    refine Eq.trans (List.flatMap_congr fun m hm => ?_) h.symm
    have hnone : new.filter (·.source == m) = [] := by
      refine List.filter_eq_nil_iff.mpr fun l hl heq => hn ?_
      rw [← hnew l hl, beq_iff_eq.mp heq]
      exact hm
    rw [List.filter_append, hnone, List.append_nil]
  have hlast : (ls ++ new).filter (·.source == n) = new := by
    have hnone : ls.filter (·.source == n) = [] :=
      List.filter_eq_nil_iff.mpr fun l hl heq => hn (beq_iff_eq.mp heq ▸ hls l hl)
    have hall : new.filter (·.source == n) = new :=
      List.filter_eq_self.mpr fun l hl => by simp [hnew l hl]
    rw [List.filter_append, hnone, hall, List.nil_append]
  rw [Grouped, List.flatMap_append, hold, List.flatMap_singleton, hlast]

theorem Grouped.filter {ns : List PathNode} {ls : List Link} (h : Grouped ns ls)
    (p : PathNode → Bool) (q : Link → Bool) (hq : ∀ l, q l = true → p l.source = true) :
    Grouped (ns.filter p) (ls.filter q) := by
  have hgroup (n : PathNode) : (ls.filter q).filter (·.source == n) =
      (ls.filter (·.source == n)).filter q := by
    rw [List.filter_filter, List.filter_filter]
    exact List.filter_congr fun l _ => Bool.and_comm _ _
  have hgone {n : PathNode} (hn : ¬ p n = true) : (ls.filter (·.source == n)).filter q = [] := by
    rw [List.filter_filter]
    refine List.filter_eq_nil_iff.mpr fun l _ hl => hn ?_
    obtain ⟨hql, hsource⟩ := Bool.and_eq_true_iff.mp hl
    exact beq_iff_eq.mp hsource ▸ hq l hql
  have hkept : ∀ ns : List PathNode,
      ((ns.filter p).flatMap fun n => (ls.filter (·.source == n)).filter q) =
        ns.flatMap fun n => (ls.filter (·.source == n)).filter q := by
    intro ns
    induction ns with
    | nil => rfl
    | cons n ns ih =>
      by_cases hn : p n = true
      · simp only [List.filter_cons_of_pos hn, List.flatMap_cons, ih]
      · simp only [List.filter_cons_of_neg hn, List.flatMap_cons, hgone hn, List.nil_append, ih]
  unfold Grouped
  simp only [hgroup]
  rw [hkept, ← List.filter_flatMap, ← h]

theorem complete_grouped (hg : g.Valid) :
    Grouped (complete tag g cfg depth).nodes (complete tag g cfg depth).links := by
  have hstep : Search.Preserves (visit tag g cfg)
      fun x => Settled tag g cfg depth x ∧ Grouped x.visited x.links := by
    intro x y hx hy
    obtain ⟨hsettled, hgrouped⟩ := hx
    have hy' := (hsettled.visit hg hy).1
    refine ⟨hy', ?_⟩
    obtain ⟨n, rest, hw, rfl⟩ := visit_eq_some hy
    have hmem : n ∈ Exploration.nodes { x with visited := x.visited ++ [n], waiting := rest } := by
      simp [nodes]
    have hvisited := ((Explored.dequeue hsettled hw).expand hg hmem).2
    obtain ⟨new, hlinks, hnew⟩ : LinksFrom n { x with visited := x.visited ++ [n], waiting := rest }
        (expand tag g cfg n { x with visited := x.visited ++ [n], waiting := rest }) :=
      linksFrom_expand _
    rw [hvisited, hlinks]
    refine hgrouped.append (Explored.not_visited hsettled hw) (fun l hl => ?_) hnew
    have hseen := List.mem_of_find?_eq_some ((Explored.link_iff hsettled l).mp hl).2
    by_contra hsource
    simp [seenBy, hsource] at hseen
  have hstart : Grouped (start tag cfg depth g).visited (start tag cfg depth g).links := rfl
  rw [← visited_complete hg, complete, Search.exhaust_eq_iterate]
  exact (Search.iterate_preserves hstep _ ⟨start_settled hg, hstart⟩).2

end Exploration

namespace PathStore.Builder

open Exploration Table

/-- A builder that has visited all its path nodes. -/
structure Finished (tag : FlowTag) (b : Builder) (x : Exploration) : Prop
    extends b.Represents tag x where
  tidy : x.Tidy
  visited : x.visited = x.nodes
  grouped : Grouped x.nodes x.links

variable {tag : FlowTag} {g : FlowGraph} {cfg : FlowConfig} {depth : Int} {b : Builder}
  {x : Exploration} {n : PathNode} {o p : Occurrence}

theorem view_injective (s : PathStore) : Function.Injective s.view := by
  intro o p h
  obtain ⟨hindex, htag, hnode, hcontext, -⟩ := PathNode.mk.inj h
  cases o
  cases p
  simp_all

theorem Finished.view (h : b.Finished tag x) (hn : n ∈ x.nodes) : b.store.view n.bare = n := by
  have hflag (f : PathNode → Bool) : ((x.nodes.filter f).map PathNode.bare).contains n.bare = f n := by
    rw [← Bool.coe_iff_coe, List.contains_iff_mem, List.mem_map]
    constructor
    · intro hm
      obtain ⟨m, hm, hbare⟩ := hm
      obtain ⟨hm, hf⟩ := List.mem_filter.mp hm
      exact (h.tidy.bare_inj hm hn).mp hbare ▸ hf
    · exact fun hf => ⟨n, List.mem_filter.mpr ⟨hn, hf⟩, rfl⟩
  have hsource := hflag (·.isSource)
  have hsink := hflag (·.isSink)
  rw [← h.sourceFlags] at hsource
  rw [← h.visited, ← h.sinkFlags] at hsink
  rw [PathStore.view, hsource, hsink]
  rfl

theorem Finished.map_view (h : b.Finished tag x) {ns : List PathNode} (hns : ∀ n ∈ ns, n ∈ x.nodes) :
    (ns.map PathNode.bare).map b.store.view = ns := by
  rw [List.map_map]
  exact (List.map_congr_left fun n hn => h.view (hns n hn)).trans (List.map_id ns)

theorem Finished.sinks (h : b.Finished tag x) :
    b.store.sinks = (x.nodes.filter (·.isSink)).map PathNode.bare := by
  rw [PathStore.sinks, h.holds.nodes, List.filter_map]
  congr 1
  exact List.filter_congr fun n hn => congrArg PathNode.isSink (h.view hn)

theorem Finished.predecessors (h : b.Finished tag x) (o : Occurrence) :
    b.store.predecessors o = (x.before (b.store.view o)).map PathNode.bare := by
  have hends : EndsIn (x.nodes.map PathNode.bare) (x.links.map Link.bare) := h.tidy.endsIn
  rw [PathStore.predecessors, h.holds.row_entering hends, keys_row, List.filter_map, List.map_map,
    before, List.map_map]
  refine congrArg (List.map _) (List.filter_congr fun l hl => ?_)
  rw [Function.comp_apply, ← Bool.coe_iff_coe, decide_eq_true_iff, beq_iff_eq]
  constructor
  · intro ho
    rw [← ho]
    exact (h.view (h.tidy.ends l hl).2).symm
  · intro ho
    rw [Link.bare, ho]
    rfl

/-- What is alive in the tables is what is alive in the exploration. -/
theorem Finished.alive (h : b.Finished tag x) : x.alive = b.store.alive.map b.store.view := by
  have hbefore (o : Occurrence) :
      x.before (b.store.view o) = (b.store.predecessors o).map b.store.view := by
    rw [h.predecessors, h.map_view fun m hm => ?_]
    obtain ⟨l, hl, rfl, -⟩ := mem_before.mp hm
    exact (h.tidy.ends l hl).1
  have hsinks : x.nodes.filter (·.isSink) = b.store.sinks.map b.store.view := by
    rw [h.sinks, h.map_view fun n hn => (List.mem_filter.mp hn).1]
  have hlength : b.store.interned.length = x.nodes.length := by
    rw [h.holds.length_interned, List.length_map]
  rw [PathStore.alive, hlength, ← Search.closure_map (view_injective b.store) hbefore, ← hsinks]
  rfl

theorem Finished.mem_alive (h : b.Finished tag x) (hn : n ∈ x.nodes) :
    b.store.alive.contains n.bare = x.alive.contains n := by
  rw [h.alive, ← Bool.coe_iff_coe, List.contains_iff_mem, List.contains_iff_mem]
  conv_rhs => rw [← h.view hn]
  exact (List.mem_map_of_injective (view_injective b.store)).symm

/-- The row of a path node among these links gives back those of them that begin there. -/
theorem Finished.map_row (h : b.Finished tag x) {ls : List Link} (hls : ∀ l ∈ ls, l ∈ x.links)
    (hn : n ∈ x.nodes) :
    ((row Step.source Step.target (ls.map Link.bare) n.bare).map fun t =>
      (⟨b.store.view n.bare, b.store.view t.1, t.2⟩ : Link)) = ls.filter (·.source == n) := by
  have hgroup : (ls.map Link.bare).filter (fun l => decide (l.source = n.bare)) =
      (ls.filter (·.source == n)).map Link.bare := by
    rw [List.filter_map]
    refine congrArg _ (List.filter_congr fun l hl => ?_)
    rw [Function.comp_apply, ← Bool.coe_iff_coe, decide_eq_true_iff, beq_iff_eq]
    exact h.tidy.bare_inj (h.tidy.ends l (hls l hl)).1 hn
  rw [row, hgroup, List.map_map, List.map_map]
  refine (List.map_congr_left fun l hl => ?_).trans (List.map_id _)
  obtain ⟨hl, hsource⟩ := List.mem_filter.mp hl
  have htarget : b.store.view l.target.bare = l.target := h.view (h.tidy.ends l (hls l hl)).2
  simp only [Function.comp_apply, Link.bare, h.view hn, htarget, id_eq]
  rw [← beq_iff_eq.mp hsource]

/-- The tables hold the path graph of the exploration once they have been pruned. -/
theorem Finished.graph_prune (h : b.Finished tag x) :
    b.store.prune.graph b.store.nodes.length = x.prune tag := by
  have hpruned := h.holds.prune
  have hview : b.store.prune.view = b.store.view := rfl
  have hnodes : (x.nodes.map PathNode.bare).filter b.store.alive.contains =
      (x.nodes.filter x.alive.contains).map PathNode.bare := by
    rw [List.filter_map]
    exact congrArg _ (List.filter_congr fun n hn => h.mem_alive hn)
  have hlinks : ((x.links.map Link.bare).filter fun l =>
      b.store.alive.contains l.source && b.store.alive.contains l.target) =
      (x.links.filter fun l => x.alive.contains l.source && x.alive.contains l.target).map
        Link.bare := by
    rw [List.filter_map]
    refine congrArg _ (List.filter_congr fun l hl => ?_)
    obtain ⟨hs, ht⟩ := h.tidy.ends l hl
    exact congrArg₂ _ (h.mem_alive hs) (h.mem_alive ht)
  rw [hnodes, hlinks] at hpruned
  rw [PathStore.graph, Exploration.prune, PathGraph.mk.injEq]
  refine ⟨h.tag, ?_, ?_, ?_⟩
  · rw [h.holds.nodes, List.length_map]
  · rw [hpruned.nodes, hview, h.map_view fun n hn => (List.mem_filter.mp hn).1]
  · have hgrouped := h.grouped.filter x.alive.contains
      (fun l => x.alive.contains l.source && x.alive.contains l.target)
      fun l hl => (Bool.and_eq_true_iff.mp hl).1
    rw [hpruned.leaving, hview, tabulate, List.flatMap_map, List.flatMap_map]
    refine Eq.trans (List.flatMap_congr fun n hn => ?_) hgrouped.symm
    exact h.map_row (fun l hl => (List.mem_filter.mp hl).1) (List.mem_filter.mp hn).1

end PathStore.Builder

namespace PathStore

open Exploration Builder

variable {tag : FlowTag} {g : FlowGraph} {cfg : FlowConfig} {depth : Int}

/-- The store is built just if the path graph is, and holds it. -/
theorem graph_build (hg : g.Valid) :
    ((Builder.complete tag g cfg depth).toOption.map fun b =>
      b.store.prune.graph b.store.nodes.length) = PathGraph.build? tag g cfg depth := by
  have hkeeps : Keeps tag (Builder.complete tag g cfg depth)
      (Exploration.complete tag g cfg depth) := complete_keeps hg
  unfold PathGraph.build?
  generalize Builder.complete tag g cfg depth = r at hkeeps
  cases hkeeps with
  | ok h =>
    have hfinished : Finished tag _ (Exploration.complete tag g cfg depth) :=
      ⟨h, (complete_settled hg).tidy, visited_complete hg, complete_grouped hg⟩
    rw [if_pos h.nameable, ← hfinished.graph_prune]
    rfl
  | refused v hbad =>
    rw [if_neg (by simp [hbad])]
    rfl

end PathStore
end Lockstep
