import Lockstep.Proofs.Flow.Complete
/-!
Flows that agree on the nodes of a graph. Only these are ever asked about, whether they are sources,
sinks or barriers, so that other answers about anything else lead to the same path graph.
-/

set_option autoImplicit false

namespace Lockstep

/-- Both flows say the same of every node of the graph. -/
structure FlowConfig.AgreeOn (g : FlowGraph) (cfg cfg' : FlowConfig) : Prop where
  source : ∀ n ∈ g.nodes, cfg'.isSource n = cfg.isSource n
  sink : ∀ n ∈ g.nodes, cfg'.isSink n = cfg.isSink n
  barrier : ∀ n ∈ g.nodes, cfg'.isBarrier n = cfg.isBarrier n

namespace Exploration

variable {tag : FlowTag} {g : FlowGraph} {cfg cfg' : FlowConfig} {depth : Int} {x : Exploration}
  {n : PathNode} {e : FlowEdge}

theorem start_agree (h : cfg.AgreeOn g cfg') : start tag cfg' depth g = start tag cfg depth g := by
  have hsources : g.nodes.filter cfg'.isSource = g.nodes.filter cfg.isSource :=
    List.filter_congr h.source
  have hwaiting : (start tag cfg' depth g).waiting = (start tag cfg depth g).waiting := by
    simp only [start, hsources]
    refine List.mapIdx_eq_mapIdx_iff.mpr fun i hi => ?_
    have hmem := (List.mem_filter.mp (List.getElem_mem hi)).1
    simp only [discover, h.sink _ hmem]
  simpa only [start, mk.injEq, true_and, and_true] using hwaiting

theorem follow_agree (h : cfg.AgreeOn g cfg') :
    follow tag g cfg' n x e = follow tag g cfg n x e := by
  unfold follow
  cases hf : g.findNode? e.target with
  | none => rfl
  | some m =>
    have hm := (FlowGraph.mem_of_findNode? hf).1
    simp only [reach, discover, h.barrier m hm, h.sink m hm]

theorem expand_agree (h : cfg.AgreeOn g cfg') (hn : n.node ∈ g.nodes) :
    expand tag g cfg' n x = expand tag g cfg n x := by
  have hfollow : follow tag g cfg' n = follow tag g cfg n :=
    funext fun _ => funext fun _ => follow_agree h
  unfold expand
  rw [h.barrier _ hn, hfollow]

theorem visit_agree (h : cfg.AgreeOn g cfg') (hx : Settled tag g cfg depth x) :
    visit tag g cfg' x = visit tag g cfg x := by
  unfold visit
  cases hw : x.waiting with
  | nil => rfl
  | cons n rest =>
    have hn : n ∈ x.nodes := by simp [nodes, hw]
    simp only [expand_agree h (Explored.node_mem hx hn)]

theorem complete_agree (hg : g.Valid) (h : cfg.AgreeOn g cfg') :
    complete tag g cfg' depth = complete tag g cfg depth := by
  unfold complete
  rw [Search.exhaust_eq_iterate, Search.exhaust_eq_iterate, start_agree h]
  have hstep : ∀ x : Exploration, Settled tag g cfg depth x →
      (visit tag g cfg x).map id = visit tag g cfg' (id x) := fun x hx => by
    rw [Option.map_id_apply, id, visit_agree h hx]
  exact (Search.iterate_simulates (visit_preserves hg) hstep _ (start_settled hg)).symm

end Exploration

theorem PathGraph.build_agree {tag : FlowTag} {g : FlowGraph} {cfg cfg' : FlowConfig} {depth : Int}
    (hg : g.Valid) (h : cfg.AgreeOn g cfg') : build tag g cfg' depth = build tag g cfg depth := by
  unfold build
  rw [Exploration.complete_agree hg h]

end Lockstep
