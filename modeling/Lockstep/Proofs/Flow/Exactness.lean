import Lockstep.Flow.Settled
import Lockstep.Proofs.Flow.Kept
/-!
Path graphs are exact. The main statement says what a path graph holds in terms of walks alone: its
path nodes, its steps and its flags.
-/

set_option autoImplicit false

namespace Lockstep

/-- A graph whose call sites can name something meets no other contexts. -/
theorem Exploration.Explored.isNameable {tag : FlowTag} {g : FlowGraph} {cfg : FlowConfig}
    {depth : Int} {seen : Seen} {x : Exploration} (h : Explored tag g cfg depth seen x)
    (hsites : ∀ e ∈ g.edges, e.callSite.isScalar = true) : x.isNameable = true := by
  simp only [Exploration.isNameable, List.all_eq_true]
  intro n hn s hs
  obtain ⟨e, he, rfl⟩ := List.mem_map.mp ((h.arrived n hn).arrives.fits.site s hs)
  exact (Json.isScalar_key _).trans (hsites e (List.mem_filter.mp he).1)

namespace PathGraph

/-- One path node for each place on a walk from a source to a sink, and between the path nodes one
step wherever an edge allows it. -/
structure Exact (g : FlowGraph) (cfg : FlowConfig) (depth : Int) (p : PathGraph) : Prop where
  node_mem : ∀ n ∈ p.nodes, n.node ∈ g.nodes
  node_iff : ∀ (id : Text) (sites : List Json), (∃ n ∈ p.nodes, n.place = (id, sites)) ↔
    ∃ t, t.place = (id, sites) ∧ Arrives g cfg depth t ∧ Escapes g cfg t
  unique : ∀ n ∈ p.nodes, ∀ m ∈ p.nodes, n.place = m.place → n = m
  nodup : p.nodes.Nodup
  successor_iff : ∀ n m, m ∈ p.successors n ↔ n ∈ p.nodes ∧ m ∈ p.nodes ∧
    ∃ e ∈ g.edges, e.source = n.node.id ∧ e.target = m.node.id ∧
      cfg.isBarrier n.node = false ∧ cfg.isBarrier m.node = false ∧
      ∃ c, n.context.along e = some c ∧ c.sites = m.context.sites
  nodup_successors : ∀ n, (p.successors n).Nodup
  source_iff : ∀ n ∈ p.nodes, n.isSource = true ↔
    cfg.isSource n.node = true ∧ n.context.sites = []
  sink_iff : ∀ n ∈ p.nodes, n.isSink = true ↔ cfg.isSink n.node = true

variable {tag : FlowTag} {g : FlowGraph} {cfg : FlowConfig} {depth : Int} {n m : PathNode}

theorem place_iff_build (hg : g.Valid) (id : Text) (sites : List Json) :
    (∃ n ∈ (build tag g cfg depth).nodes, n.place = (id, sites)) ↔
    ∃ t, t.place = (id, sites) ∧ Arrives g cfg depth t ∧ Escapes g cfg t := by
  constructor
  · intro h
    obtain ⟨n, hn, hp⟩ := h
    exact ⟨n.position, hp, (arrived_build hg hn).arrives, ((mem_nodes_build hg).mp hn).2⟩
  · intro h
    obtain ⟨t, hp, ht, hs⟩ := h
    have hkept : ∃ n ∈ (build tag g cfg depth).nodes, n.At t := exists_build hg ht hs
    obtain ⟨n, hn, hat⟩ := hkept
    refine ⟨n, hn, Eq.trans ?_ hp⟩
    simp [Position.place, PathNode.position, hat.1, hat.2.1]

theorem successor_iff_edge (hg : g.Valid) : m ∈ (build tag g cfg depth).successors n ↔
    n ∈ (build tag g cfg depth).nodes ∧ m ∈ (build tag g cfg depth).nodes ∧
    ∃ e ∈ g.edges, e.source = n.node.id ∧ e.target = m.node.id ∧
      cfg.isBarrier n.node = false ∧ cfg.isBarrier m.node = false ∧
      ∃ c, n.context.along e = some c ∧ c.sites = m.context.sites := by
  constructor
  · intro h
    obtain ⟨hn, hm, -⟩ := (mem_successors_build hg).mp h
    obtain ⟨t, ⟨e, he⟩, hnode, hsame⟩ := (successor_iff_step hg hn hm).mp h
    refine ⟨hn, hm, e, he.edge, he.source, ?_, he.leaves, ?_, t.context, he.context, hsame.1.symm⟩
    · rw [hnode]
      exact he.target
    · rw [hnode]
      exact he.enters
  · intro h
    obtain ⟨hn, hm, e, he, hs, ht, hleaves, henters, c, hc, hsites⟩ := h
    have hmem := (arrived_build hg hm).arrives.mem_nodes
    have hlead : Leads g cfg n.position e ⟨m.node, c⟩ := ⟨he, hs, ht, hmem, hleaves, henters, hc⟩
    have hfits := (arrived_build hg hn).arrives.fits.along he hc
    have hsame : m.context.Same c :=
      ⟨hsites.symm, (arrived_build hg hm).arrives.fits.bound.trans hfits.bound.symm⟩
    exact (successor_iff_step hg hn hm).mpr ⟨_, ⟨e, hlead⟩, rfl, hsame⟩

theorem isNameable_complete (hg : g.Valid) (hsites : ∀ e ∈ g.edges, e.callSite.isScalar = true) :
    (Exploration.complete tag g cfg depth).isNameable = true :=
  (Exploration.complete_settled hg).isNameable hsites

theorem build?_eq_some (hg : g.Valid) (hsites : ∀ e ∈ g.edges, e.callSite.isScalar = true) :
    build? tag g cfg depth = some (build tag g cfg depth) := by
  have hname : (Exploration.complete tag g cfg depth).isNameable = true :=
    isNameable_complete hg hsites
  simp [build?, build, hname]

/-- The path graph of every graph, flow and bound is exact, and there always is one if call sites
are values that can name something. -/
theorem build_exact (hg : g.Built) (tag : FlowTag) (cfg : FlowConfig) (depth : Int) :
    (build tag g cfg depth).Exact g cfg depth ∧
    ((∀ e ∈ g.edges, e.callSite.isScalar = true) →
      build? tag g cfg depth = some (build tag g cfg depth)) where
  left := {
    node_mem := fun _ hn => (arrived_build hg.valid hn).arrives.mem_nodes
    node_iff := place_iff_build hg.valid
    unique := fun _ hn _ hm => place_inj_build hg.valid hn hm
    nodup := nodup_nodes_build hg.valid
    successor_iff := fun _ _ => successor_iff_edge hg.valid
    nodup_successors := fun _ => nodup_successors_build hg.valid
    source_iff := fun _ hn => (arrived_build hg.valid hn).source
    sink_iff := fun n hn => by rw [(arrived_build hg.valid hn).sink] }
  right := build?_eq_some hg.valid

/-- One source is a barrier, one can be come back to, and calls may be open without end. -/
theorem build_exact_sample :
    FlowGraph.sample.Built ∧
    let cfg := FlowConfig.ofIds [['s'], ['t']] [['k']] [['t']]
    let p := build ⟨['A'], 0⟩ FlowGraph.sample cfg 1
    p.Exact FlowGraph.sample cfg 1 ∧
      build? ⟨['A'], 0⟩ FlowGraph.sample cfg 1 = some p := by
  have h := build_exact FlowGraph.built_sample ⟨['A'], 0⟩
    (.ofIds [['s'], ['t']] [['k']] [['t']]) 1
  exact ⟨FlowGraph.built_sample, h.1, h.2 (by decide)⟩

end PathGraph
end Lockstep
