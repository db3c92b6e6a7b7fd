import Lockstep.Proofs.Flow.Complete
/-!
What a path graph keeps. Of the path nodes that were discovered it holds those from which a walk
leads on to a sink, and of the links those between them.
-/

set_option autoImplicit false

namespace Lockstep

variable {tag : FlowTag} {g : FlowGraph} {cfg : FlowConfig} {depth : Int} {n m : PathNode}
  {e : FlowEdge} {s t : Position}

theorem Escapes.same {s' : Position} (h : Escapes g cfg s) (hn : s.node = s'.node)
    (hc : s.context.Same s'.context) : Escapes g cfg s' :=
  h.simulated CallString.same_simulates hn.symm hc.symm

theorem PathNode.At.escapes (h : n.At s) : Escapes g cfg s ↔ Escapes g cfg n.position :=
  ⟨fun hs => hs.same h.1.symm h.2.symm, fun hn => hn.same h.1 h.2⟩

namespace Exploration

def before (x : Exploration) (n : PathNode) : List PathNode :=
  (x.links.filter (·.target == n)).map (·.source)

theorem mem_before {x : Exploration} : m ∈ x.before n ↔ ∃ l ∈ x.links, l.source = m ∧ l.target = n := by
  simp only [before, List.mem_map, List.mem_filter, beq_iff_eq]
  exact ⟨fun ⟨l, ⟨hl, ht⟩, hs⟩ => ⟨l, hl, hs, ht⟩, fun ⟨l, hl, hs, ht⟩ => ⟨l, ⟨hl, ht⟩, hs⟩⟩

theorem mem_alive_iff (hg : g.Valid) : n ∈ (complete tag g cfg depth).alive ↔
    Search.Reached (complete tag g cfg depth).before
      ((complete tag g cfg depth).nodes.filter (·.isSink)) n := by
  refine Search.mem_closure_iff ((Explored.nodup (complete_settled hg)).filter _)
    (fun m hm => (List.mem_filter.mp hm).1) ?_ (Nat.le_refl _) n
  intro m _ k hk
  obtain ⟨l, hl, rfl, -⟩ := mem_before.mp hk
  exact ((complete_link_iff hg).mp hl).1

theorem step_of_link (hg : g.Valid) {l : Link} (hl : l ∈ (complete tag g cfg depth).links) :
    ∃ t, Leads g cfg l.source.position l.edge t ∧ l.target.At t := by
  obtain ⟨hs, ht, hfirst⟩ := (complete_link_iff hg).mp hl
  have hnode := Explored.node_mem (complete_settled hg) ht
  have he : l.edge ∈ g.outEdges l.source.node.id := List.mem_of_find?_eq_some hfirst
  obtain ⟨t, hlead, hp⟩ := (takes_iff hg he hnode).mp (List.find?_some hfirst)
  have hs' := ((complete_settled hg).arrived _ hs).arrives
  exact ⟨t, hlead, complete_at hg ht (hs'.step ⟨_, hlead⟩) hp.symm⟩

theorem firstEdge?_of_step (hg : g.Valid) (hm : m.node ∈ g.nodes) (ht : FlowStep g cfg n.position t)
    (hmt : m.At t) : ∃ e, firstEdge? g cfg n m = some e := by
  obtain ⟨e, he⟩ := ht
  have hout : e ∈ g.outEdges n.node.id := FlowGraph.mem_outEdges.mpr ⟨he.edge, he.source⟩
  have hp : t.place = m.place := by
    simp [Position.place, PathNode.position, hmt.1, hmt.2.1]
  have htakes : takes cfg n m e = true := (takes_iff hg hout hm).mpr ⟨t, he, hp⟩
  exact Option.isSome_iff_exists.mp (List.find?_isSome.mpr ⟨e, hout, htakes⟩)

theorem alive_of_walk (hg : g.Valid) (hw : Walk g cfg s t) (hsink : cfg.isSink t.node = true) :
    ∀ n ∈ (complete tag g cfg depth).nodes, n.At s →
      Search.Reached (complete tag g cfg depth).before
        ((complete tag g cfg depth).nodes.filter (·.isSink)) n := by
  -- from the sink backwards, as the search for what is alive goes
  induction hw using Relation.ReflTransGen.head_induction_on with
  | refl =>
    intro n hn hat
    refine .of_mem (List.mem_filter.mpr ⟨hn, ?_⟩)
    rw [((complete_settled hg).arrived n hn).sink, hat.1]
    exact hsink
  | @head u v huv _ ih =>
    intro n hn hat
    obtain ⟨e, he⟩ := huv
    have hnode : u.node = n.position.node := hat.1.symm
    obtain ⟨d, he', hd⟩ := he.same hnode hat.2.symm
    obtain ⟨m, hm, hmat⟩ := complete_step hg hn ⟨e, he'⟩
    have hmnode := Explored.node_mem (complete_settled hg) hm
    obtain ⟨e', hfirst⟩ := firstEdge?_of_step hg hmnode ⟨e, he'⟩ hmat
    have hlink : (⟨n, m, e'⟩ : Link) ∈ (complete tag g cfg depth).links :=
      (complete_link_iff hg).mpr ⟨hn, hm, hfirst⟩
    exact (ih m hm ⟨hmat.1, hmat.2.trans hd.symm⟩).next (mem_before.mpr ⟨_, hlink, rfl, rfl⟩)

theorem mem_alive (hg : g.Valid) : n ∈ (complete tag g cfg depth).alive ↔
    n ∈ (complete tag g cfg depth).nodes ∧ Escapes g cfg n.position := by
  rw [mem_alive_iff hg]
  constructor
  · refine Search.Reached.induct (P := fun k =>
      k ∈ (complete tag g cfg depth).nodes ∧ Escapes g cfg k.position) ?_ ?_
    · intro k hk
      obtain ⟨hk, hsink⟩ := List.mem_filter.mp hk
      rw [((complete_settled hg).arrived k hk).sink] at hsink
      exact ⟨hk, k.position, .refl, hsink⟩
    · intro k hk j hj
      obtain ⟨-, hk⟩ := hk
      obtain ⟨l, hl, rfl, rfl⟩ := mem_before.mp hj
      obtain ⟨t, hlead, hat⟩ := step_of_link hg hl
      exact ⟨((complete_link_iff hg).mp hl).1, (hat.escapes.mpr hk).walk (.single ⟨_, hlead⟩)⟩
  · intro h
    obtain ⟨hn, t, hw, hsink⟩ := h
    exact alive_of_walk hg hw hsink n hn ⟨rfl, .refl _⟩

end Exploration

namespace PathGraph

open Exploration

theorem mem_nodes_build (hg : g.Valid) : n ∈ (build tag g cfg depth).nodes ↔
    n ∈ (complete tag g cfg depth).nodes ∧ Escapes g cfg n.position := by
  simp only [build, prune, List.mem_filter, List.contains_iff_mem, mem_alive hg]
  exact ⟨fun h => h.2, fun h => ⟨h.1, h⟩⟩

theorem mem_links_build (hg : g.Valid) {l : Link} : l ∈ (build tag g cfg depth).links ↔
    l.source ∈ (build tag g cfg depth).nodes ∧ l.target ∈ (build tag g cfg depth).nodes ∧
    firstEdge? g cfg l.source l.target = some l.edge := by
  simp only [mem_nodes_build hg]
  simp only [build, prune, List.mem_filter, Bool.and_eq_true, List.contains_iff_mem,
    mem_alive hg, complete_link_iff hg]
  exact ⟨fun ⟨⟨_, _, h⟩, hs, ht⟩ => ⟨hs, ht, h⟩, fun ⟨hs, ht, h⟩ => ⟨⟨hs.1, ht.1, h⟩, hs, ht⟩⟩

theorem arrived_build (hg : g.Valid) (hn : n ∈ (build tag g cfg depth).nodes) :
    n.Arrived tag g cfg depth :=
  (complete_settled hg).arrived n ((mem_nodes_build hg).mp hn).1

theorem nodup_nodes_build (hg : g.Valid) : (build tag g cfg depth).nodes.Nodup :=
  (Explored.nodup (complete_settled hg)).filter _

theorem place_inj_build (hg : g.Valid) (hn : n ∈ (build tag g cfg depth).nodes)
    (hm : m ∈ (build tag g cfg depth).nodes) (hp : n.place = m.place) : n = m :=
  Explored.place_inj (complete_settled hg) ((mem_nodes_build hg).mp hn).1
    ((mem_nodes_build hg).mp hm).1 hp

/-- A path node is kept for every position on a walk from a source to a sink. -/
theorem exists_build (hg : g.Valid) (ht : Arrives g cfg depth t) (hs : Escapes g cfg t) :
    ∃ n ∈ (build tag g cfg depth).nodes, n.At t := by
  have hmet : ∃ n ∈ (complete tag g cfg depth).nodes, n.At t := exists_complete hg ht
  obtain ⟨n, hn, hat⟩ := hmet
  exact ⟨n, (mem_nodes_build hg).mpr ⟨hn, hat.escapes.mp hs⟩, hat⟩

theorem mem_successors {p : PathGraph} : m ∈ p.successors n ↔
    ∃ l ∈ p.links, l.source = n ∧ l.target = m := by
  simp only [successors, List.mem_map, List.mem_filter, beq_iff_eq, and_assoc]

theorem mem_predecessors {p : PathGraph} : m ∈ p.predecessors n ↔ n ∈ p.successors m := by
  simp only [predecessors, successors, List.mem_map, List.mem_filter, beq_iff_eq, and_assoc]
  exact exists_congr fun l => and_congr_right fun _ => and_comm

theorem mem_successors_build (hg : g.Valid) : m ∈ (build tag g cfg depth).successors n ↔
    n ∈ (build tag g cfg depth).nodes ∧ m ∈ (build tag g cfg depth).nodes ∧
    ∃ e, firstEdge? g cfg n m = some e := by
  rw [mem_successors]
  constructor
  · intro h
    obtain ⟨l, hl, rfl, rfl⟩ := h
    obtain ⟨hs, ht, hfirst⟩ := (mem_links_build hg).mp hl
    exact ⟨hs, ht, l.edge, hfirst⟩
  · intro h
    obtain ⟨hn, hm, e, hfirst⟩ := h
    exact ⟨⟨n, m, e⟩, (mem_links_build hg).mpr ⟨hn, hm, hfirst⟩, rfl, rfl⟩

theorem successor_iff_step (hg : g.Valid) (hn : n ∈ (build tag g cfg depth).nodes)
    (hm : m ∈ (build tag g cfg depth).nodes) :
    m ∈ (build tag g cfg depth).successors n ↔ ∃ t, FlowStep g cfg n.position t ∧ m.At t := by
  have hn' := ((mem_nodes_build hg).mp hn).1
  have hm' := ((mem_nodes_build hg).mp hm).1
  rw [mem_successors_build hg]
  constructor
  · intro h
    obtain ⟨-, -, e, hfirst⟩ := h
    have hlink : (⟨n, m, e⟩ : Link) ∈ (complete tag g cfg depth).links :=
      (complete_link_iff hg).mpr ⟨hn', hm', hfirst⟩
    obtain ⟨t, hlead, hat⟩ := step_of_link hg hlink
    exact ⟨t, ⟨e, hlead⟩, hat⟩
  · intro h
    obtain ⟨t, ht, hat⟩ := h
    exact ⟨hn, hm, firstEdge?_of_step hg (arrived_build hg hm).arrives.mem_nodes ht hat⟩

/-- A step in the path graph is a step of the flow from wherever the path node stands for. -/
theorem step_of_successor (hg : g.Valid) (hm : m ∈ (build tag g cfg depth).successors n)
    (hat : n.At s) : ∃ t, FlowStep g cfg s t ∧ m.At t := by
  obtain ⟨hn, hm', -⟩ := (mem_successors_build hg).mp hm
  obtain ⟨t, ⟨e, he⟩, hmt⟩ := (successor_iff_step hg hn hm').mp hm
  have hnode : n.position.node = s.node := hat.1
  obtain ⟨d, he', hd⟩ := he.same hnode hat.2
  exact ⟨⟨t.node, d⟩, ⟨e, he'⟩, hmt.1, hmt.2.trans hd⟩

/-- A step of the flow from where a path node stands is a step in the path graph, if a sink can be
come to from there. -/
theorem successor_of_step (hg : g.Valid) (hn : n ∈ (build tag g cfg depth).nodes) (hat : n.At s)
    (hst : FlowStep g cfg s t) (ht : Escapes g cfg t) :
    ∃ m ∈ (build tag g cfg depth).successors n, m.At t := by
  obtain ⟨e, he⟩ := hst
  have hnode : s.node = n.position.node := hat.1.symm
  obtain ⟨d, he', hd⟩ := he.same hnode hat.2.symm
  have harrives := (arrived_build hg hn).arrives.step ⟨e, he'⟩
  have hescapes : Escapes g cfg ⟨t.node, d⟩ := ht.same rfl hd
  have hkept : ∃ m ∈ (build tag g cfg depth).nodes, m.At ⟨t.node, d⟩ :=
    exists_build hg harrives hescapes
  obtain ⟨m, hm, hmat⟩ := hkept
  have hsucc := (successor_iff_step hg hn hm).mpr ⟨_, ⟨e, he'⟩, hmat⟩
  exact ⟨m, hsucc, hmat.1, hmat.2.trans hd.symm⟩

theorem links_nodup_build (hg : g.Valid) :
    ((build tag g cfg depth).links.map fun l => (l.source, l.target)).Nodup :=
  (complete_settled hg).links_nodup.sublist (List.filter_sublist.map _)

theorem nodup_successors_build (hg : g.Valid) : ((build tag g cfg depth).successors n).Nodup := by
  refine List.Nodup.map_on ?_ (((links_nodup_build hg).of_map _).filter _)
  intro k hk l hl hkl
  simp only [List.mem_filter, beq_iff_eq] at hk hl
  have hkey : (k.source, k.target) = (l.source, l.target) := by rw [hk.2, hl.2, hkl]
  exact List.inj_on_of_nodup_map (links_nodup_build hg) hk.1 hl.1 hkey

theorem edge?_build (hg : g.Valid) : (build tag g cfg depth).edge? n m = some e ↔
    n ∈ (build tag g cfg depth).nodes ∧ m ∈ (build tag g cfg depth).nodes ∧
    firstEdge? g cfg n m = some e := by
  unfold edge?
  constructor
  · intro h
    obtain ⟨l, hl, rfl⟩ := Option.map_eq_some_iff.mp h
    have hkey : l.source = n ∧ l.target = m := by simpa using List.find?_some hl
    have hlink := (mem_links_build hg).mp (List.mem_of_find?_eq_some hl)
    rwa [hkey.1, hkey.2] at hlink
  · intro h
    obtain ⟨hn, hm, hfirst⟩ := h
    have hlink := (mem_links_build (l := ⟨n, m, e⟩) hg).mpr ⟨hn, hm, hfirst⟩
    cases hf : (build tag g cfg depth).links.find? fun l => l.source == n && l.target == m with
    | none => simpa using List.find?_eq_none.mp hf _ hlink
    | some l =>
      have hkey : l.source = n ∧ l.target = m := by simpa using List.find?_some hf
      have hl := ((mem_links_build hg).mp (List.mem_of_find?_eq_some hf)).2.2
      rw [hkey.1, hkey.2, hfirst] at hl
      exact hl.symm

end PathGraph
end Lockstep
