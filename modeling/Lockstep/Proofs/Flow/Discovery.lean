import Lockstep.Proofs.Flow.Walk
import Lockstep.Proofs.Search.Run
/-!
What an exploration has discovered at any time. Each place that was met has one path node, to which
a walk from a source leads, and two path nodes are linked by the first edge, of those that were
looked at so far, that leads from one to the other.
-/

set_option autoImplicit false

namespace Lockstep

namespace PathNode

def position (n : PathNode) : Position := ⟨n.node, n.context⟩

abbrev place (n : PathNode) : Text × List Json := n.position.place

theorem isAt_iff {n : PathNode} {id : Text} {sites : List Json} :
    n.isAt id sites = true ↔ n.place = (id, sites) := by
  simp [isAt, place, Position.place, position]

/-- A path node stands for a position: the same node with the same open calls. -/
def At (n : PathNode) (s : Position) : Prop := n.node = s.node ∧ n.context.Same s.context

theorem At.routine {n : PathNode} {s : Position} (h : n.At s) : n.routine = s.node.routine :=
  congrArg FlowNode.routine h.1

/-- A path node as it is discovered at the end of a walk. -/
structure Arrived (tag : FlowTag) (g : FlowGraph) (cfg : FlowConfig) (depth : Int) (n : PathNode) :
    Prop where
  tag : n.tag = tag
  arrives : Arrives g cfg depth n.position
  source : n.isSource = true ↔ cfg.isSource n.node = true ∧ n.context.sites = []
  sink : n.isSink = cfg.isSink n.node

end PathNode

theorem Leads.place_eq {g : FlowGraph} {cfg : FlowConfig} {s t t' : Position} {e : FlowEdge}
    (h : Leads g cfg s e t) (h' : Leads g cfg s e t') : t.place = t'.place := by
  have hid : t.node.id = t'.node.id := h.target.symm.trans h'.target
  have hc : t.context = t'.context := Option.some.inj (h.context.symm.trans h'.context)
  simp [Position.place, hid, hc]

/-- The edge, which begins at the first path node, leads on to the second one. -/
def takes (cfg : FlowConfig) (n m : PathNode) (e : FlowEdge) : Bool :=
  e.target == m.node.id && !cfg.isBarrier n.node && !cfg.isBarrier m.node &&
  (n.context.along e).any (·.sites == m.context.sites)

theorem takes_iff {g : FlowGraph} {cfg : FlowConfig} (hg : g.Valid) {n m : PathNode} {e : FlowEdge}
    (he : e ∈ g.outEdges n.node.id) (hm : m.node ∈ g.nodes) :
    takes cfg n m e = true ↔ ∃ t, Leads g cfg n.position e t ∧ t.place = m.place := by
  obtain ⟨hedge, hsource⟩ := FlowGraph.mem_outEdges.mp he
  simp only [takes, Bool.and_eq_true, Bool.not_eq_true', beq_iff_eq, Option.any_eq_true]
  constructor
  · intro h
    obtain ⟨⟨⟨ht, hn⟩, hb⟩, d, hd, hs⟩ := h
    exact ⟨⟨m.node, d⟩, ⟨hedge, hsource, ht, hm, hn, hb, hd⟩,
      by simp [Position.place, PathNode.position, hs]⟩
  · intro h
    obtain ⟨t, ht, hp⟩ := h
    simp only [Position.place, PathNode.position, Prod.mk.injEq] at hp
    have hnode : t.node = m.node := hg.node_ext ht.node hm hp.1
    exact ⟨⟨⟨hnode ▸ ht.target, ht.leaves⟩, hnode ▸ ht.enters⟩, t.context, ht.context, hp.2⟩

def firstEdge? (g : FlowGraph) (cfg : FlowConfig) (n m : PathNode) : Option FlowEdge :=
  (g.outEdges n.node.id).find? (takes cfg n m)

namespace Exploration

/-- Of each path node, the edges that were looked at. -/
abbrev Seen := PathNode → List FlowEdge

def Seen.more (seen : Seen) (n : PathNode) (es : List FlowEdge) : Seen := fun m =>
  if m = n then seen m ++ es else seen m

theorem Seen.mem_more {seen : Seen} {n m : PathNode} {es : List FlowEdge} {e : FlowEdge} :
    e ∈ seen.more n es m ↔ e ∈ seen m ∨ (m = n ∧ e ∈ es) := by
  unfold more
  split <;> simp [*]

theorem Seen.more_cons (seen : Seen) (n : PathNode) (e : FlowEdge) (es : List FlowEdge) :
    (seen.more n [e]).more n es = seen.more n (e :: es) := by
  funext m
  unfold more
  split <;> simp

theorem Seen.find?_more (seen : Seen) (n m : PathNode) (es : List FlowEdge) (p : FlowEdge → Bool) :
    (seen.more n es m).find? p =
      if m = n then ((seen m).find? p).or (es.find? p) else (seen m).find? p := by
  unfold more
  split <;> simp [List.find?_append]

/-- What holds of an exploration that has looked at these edges. -/
structure Explored (tag : FlowTag) (g : FlowGraph) (cfg : FlowConfig) (depth : Int) (seen : Seen)
    (x : Exploration) : Prop where
  index : x.nodes.map (·.index) = List.range x.nodes.length
  places : (x.nodes.map (·.place)).Nodup
  arrived : ∀ n ∈ x.nodes, n.Arrived tag g cfg depth
  started : ∀ s ∈ g.nodes, cfg.isSource s = true → ∃ n ∈ x.nodes, n.place = (s.id, [])
  seen_mem : ∀ n : PathNode, ∀ e ∈ seen n, n ∈ x.nodes ∧ e ∈ g.outEdges n.node.id
  closed : ∀ n : PathNode, ∀ e ∈ seen n, ∀ t, Leads g cfg n.position e t →
    ∃ m ∈ x.nodes, m.place = t.place
  link_iff : ∀ l : Link, l ∈ x.links ↔
    l.target ∈ x.nodes ∧ (seen l.source).find? (takes cfg l.source l.target) = some l.edge
  links_nodup : (x.links.map fun l => (l.source, l.target)).Nodup

variable {tag : FlowTag} {g : FlowGraph} {cfg : FlowConfig} {depth : Int} {seen : Seen}
  {x : Exploration} {n m : PathNode} {e : FlowEdge} {es : List FlowEdge} {t : Position}

theorem Explored.nodup (h : Explored tag g cfg depth seen x) : x.nodes.Nodup :=
  h.places.of_map _

theorem Explored.place_inj (h : Explored tag g cfg depth seen x) (hn : n ∈ x.nodes)
    (hm : m ∈ x.nodes) (hp : n.place = m.place) : n = m :=
  List.inj_on_of_nodup_map h.places hn hm hp

theorem Explored.node_mem (h : Explored tag g cfg depth seen x) (hn : n ∈ x.nodes) :
    n.node ∈ g.nodes := (h.arrived n hn).arrives.mem_nodes

theorem Explored.skip (hg : g.Valid) (h : Explored tag g cfg depth seen x) (hn : n ∈ x.nodes)
    (hes : ∀ e ∈ es, e ∈ g.outEdges n.node.id)
    (hno : ∀ e ∈ es, ∀ t, ¬ Leads g cfg n.position e t) :
    Explored tag g cfg depth (seen.more n es) x := by
  refine { h with seen_mem := ?_, closed := ?_, link_iff := ?_ }
  · intro m e he
    rcases Seen.mem_more.mp he with he | ⟨rfl, he'⟩
    · exact h.seen_mem m e he
    · exact ⟨hn, hes e he'⟩
  · intro m e he t ht
    rcases Seen.mem_more.mp he with he | ⟨rfl, he'⟩
    · exact h.closed m e he t ht
    · exact absurd ht (hno e he' t)
  · intro l
    rw [h.link_iff l]
    refine and_congr_right fun hl => ?_
    rw [Seen.find?_more]
    split
    · rename_i hs
      have hnone : es.find? (takes cfg l.source l.target) = none := by
        refine List.find?_eq_none.mpr fun e he htakes => ?_
        rw [hs] at htakes
        obtain ⟨t, ht, -⟩ := (takes_iff hg (hes e he) (h.node_mem hl)).mp htakes
        exact hno e he t ht
      rw [hnone, Option.or_none]
    · rfl

@[simp] theorem nodes_link (x : Exploration) (n m : PathNode) (e : FlowEdge) :
    (x.link n m e).nodes = x.nodes := by
  unfold link
  split <;> rfl

@[simp] theorem visited_link (x : Exploration) (n m : PathNode) (e : FlowEdge) :
    (x.link n m e).visited = x.visited := by
  unfold link
  split <;> rfl

theorem mem_link {l : Link} : l ∈ (x.link n m e).links ↔
    l ∈ x.links ∨ ((∀ k ∈ x.links, ¬ (k.source = n ∧ k.target = m)) ∧ l = ⟨n, m, e⟩) := by
  unfold link
  by_cases hany : (x.links.any fun l => l.source == n && l.target == m) = true
  · rw [if_pos hany]
    obtain ⟨k, hk, hkey⟩ := List.any_eq_true.mp hany
    refine ⟨Or.inl, fun hl => hl.elim id fun ⟨hno, _⟩ => absurd ?_ (hno k hk)⟩
    simpa using hkey
  · rw [if_neg hany]
    have hno : ∀ k ∈ x.links, ¬ (k.source = n ∧ k.target = m) := by
      intro k hk hkey
      exact hany (List.any_eq_true.mpr ⟨k, hk, by simpa using hkey⟩)
    rw [List.mem_append, List.mem_singleton]
    exact or_congr_right (and_iff_right hno).symm

theorem nodup_link (h : (x.links.map fun l => (l.source, l.target)).Nodup) :
    ((x.link n m e).links.map fun l => (l.source, l.target)).Nodup := by
  unfold link
  split
  · exact h
  · rename_i hany
    rw [List.map_append, List.nodup_append]
    refine ⟨h, by simp, ?_⟩
    intro a ha b hb hab
    obtain ⟨k, hk, rfl⟩ := List.mem_map.mp ha
    have hkey : k.source = n ∧ k.target = m :=
      Prod.mk.inj (hab.trans (by simpa using hb))
    exact hany (List.any_eq_true.mpr ⟨k, hk, by simpa using hkey⟩)

theorem Explored.unlinked_iff (h : Explored tag g cfg depth seen x) (hm : m ∈ x.nodes) :
    (∀ k ∈ x.links, ¬ (k.source = n ∧ k.target = m)) ↔ (seen n).find? (takes cfg n m) = none := by
  constructor
  · intro hno
    cases hf : (seen n).find? (takes cfg n m) with
    | none => rfl
    | some d => exact absurd ⟨rfl, rfl⟩ (hno ⟨n, m, d⟩ ((h.link_iff _).mpr ⟨hm, hf⟩))
  · intro hf l hk hkey
    obtain ⟨s, k, d⟩ := l
    obtain ⟨rfl, rfl⟩ := hkey
    have hd := ((h.link_iff _).mp hk).2
    simp [hf] at hd

theorem Explored.link (hg : g.Valid) (h : Explored tag g cfg depth seen x) (hn : n ∈ x.nodes)
    (he : e ∈ g.outEdges n.node.id) (ht : Leads g cfg n.position e t) (hm : m ∈ x.nodes)
    (hp : m.place = t.place) : Explored tag g cfg depth (seen.more n [e]) (x.link n m e) := by
  have htakes {k : PathNode} (hk : k ∈ x.nodes) : takes cfg n k e = true ↔ k = m := by
    rw [takes_iff hg he (h.node_mem hk)]
    constructor
    · intro hstep
      obtain ⟨u, hu, hup⟩ := hstep
      exact h.place_inj hk hm (hup.symm.trans ((hu.place_eq ht).trans hp.symm))
    · intro heq
      subst heq
      exact ⟨t, ht, hp.symm⟩
  refine ⟨by simpa using h.index, by simpa using h.places, by simpa using h.arrived,
    by simpa using h.started, ?_, ?_, ?_, nodup_link h.links_nodup⟩
  · intro k d hd
    rw [nodes_link]
    rcases Seen.mem_more.mp hd with hd | ⟨rfl, hd'⟩
    · exact h.seen_mem k d hd
    · exact ⟨hn, List.mem_singleton.mp hd' ▸ he⟩
  · intro k d hd u hu
    rw [nodes_link]
    rcases Seen.mem_more.mp hd with hd | ⟨rfl, hd'⟩
    · exact h.closed k d hd u hu
    · rw [List.mem_singleton.mp hd'] at hu
      exact ⟨m, hm, hp.trans (ht.place_eq hu)⟩
  · intro l
    obtain ⟨s, k, d⟩ := l
    rw [mem_link, nodes_link, Seen.find?_more, h.link_iff, h.unlinked_iff hm]
    simp only [Link.mk.injEq]
    by_cases hs : s = n
    · subst hs
      by_cases hk : k = m
      · subst hk
        cases hf : (seen s).find? (takes cfg s k) with
        | some c => simp [hm]
        | none => simp [hm, (htakes hm).mpr rfl, eq_comm]
      · simp only [hk, false_and, and_false, or_false]
        refine and_congr_right fun hmem => ?_
        have hno : takes cfg s k e = false := by
          simpa [hk] using (htakes hmem).not
        simp [hno]
    · simp [hs]

end Exploration
end Lockstep
