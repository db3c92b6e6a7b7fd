import Lockstep.Proofs.Flow.Discovery
/-!
What a visit does to an exploration. A visit looks at all edges of the path node that has waited
longest; each of them leads to a path node that is there, to a new one or to none.
-/

set_option autoImplicit false

namespace Lockstep.Exploration

variable {tag : FlowTag} {g : FlowGraph} {cfg : FlowConfig} {depth : Int} {seen : Seen}
  {x y : Exploration} {n m : PathNode} {e : FlowEdge} {es : List FlowEdge} {t : Position}

theorem Explored.discover (hg : g.Valid) (h : Explored tag g cfg depth seen x)
    (hindex : m.index = x.nodes.length) (hm : m.Arrived tag g cfg depth)
    (hnew : ∀ k ∈ x.nodes, k.place ≠ m.place) :
    Explored tag g cfg depth seen { x with waiting := x.waiting ++ [m] } := by
  have hnodes : Exploration.nodes { x with waiting := x.waiting ++ [m] } = x.nodes ++ [m] := by
    simp [nodes]
  refine ⟨?_, ?_, ?_, ?_, ?_, ?_, ?_, h.links_nodup⟩
  · rw [hnodes]
    simp [h.index, hindex, List.range_succ]
  · rw [hnodes, List.map_append, List.nodup_append]
    refine ⟨h.places, by simp, ?_⟩
    intro a ha b hb hab
    obtain ⟨k, hk, rfl⟩ := List.mem_map.mp ha
    exact hnew k hk (hab.trans (by simpa using hb))
  · intro k hk
    rcases List.mem_append.mp (hnodes ▸ hk) with hk | hk
    · exact h.arrived k hk
    · exact List.mem_singleton.mp hk ▸ hm
  · intro s hs hsrc
    obtain ⟨k, hk, hp⟩ := h.started s hs hsrc
    exact ⟨k, hnodes ▸ List.mem_append_left _ hk, hp⟩
  · intro k d hd
    obtain ⟨hk, hd'⟩ := h.seen_mem k d hd
    exact ⟨hnodes ▸ List.mem_append_left _ hk, hd'⟩
  · intro k d hd u hu
    obtain ⟨m', hm', hp⟩ := h.closed k d hd u hu
    exact ⟨m', hnodes ▸ List.mem_append_left _ hm', hp⟩
  · intro l
    obtain ⟨s, k, d⟩ := l
    rw [hnodes, List.mem_append, List.mem_singleton, h.link_iff]
    refine and_congr_left fun hf => (or_iff_left ?_).symm
    intro heq
    subst heq
    -- an edge that had been looked at would have led to this place before
    have hd : d ∈ seen s := List.mem_of_find?_eq_some hf
    obtain ⟨u, hu, hup⟩ :=
      (takes_iff hg (h.seen_mem s d hd).2 hm.arrives.mem_nodes).mp (List.find?_some hf)
    obtain ⟨k', hk', hp⟩ := h.closed s d hd u hu
    exact hnew k' hk' (hp.trans hup)

theorem Explored.reach (hg : g.Valid) (h : Explored tag g cfg depth seen x) (hn : n ∈ x.nodes)
    (he : e ∈ g.outEdges n.node.id) (ht : Leads g cfg n.position e t) :
    Explored tag g cfg depth (seen.more n [e]) (reach tag cfg n e t.node t.context x) := by
  unfold Exploration.reach
  cases hf : x.nodes.find? (·.isAt t.node.id t.context.sites) with
  | some m =>
    have hat : m.isAt t.node.id t.context.sites = true := by simpa using List.find?_some hf
    exact h.link hg hn he ht (List.mem_of_find?_eq_some hf) (PathNode.isAt_iff.mp hat)
  | none =>
    let m := Exploration.discover tag cfg x.nodes.length t.node t.context false
    have hnew : ∀ k ∈ x.nodes, k.place ≠ m.place := by
      intro k hk hp
      exact List.find?_eq_none.mp hf k hk (PathNode.isAt_iff.mpr hp)
    have hm : m.Arrived tag g cfg depth := by
      refine ⟨rfl, (h.arrived n hn).arrives.step ⟨e, ht⟩, ?_, rfl⟩
      simp only [m, Exploration.discover, Bool.false_eq_true, false_iff]
      intro hstart
      obtain ⟨hsrc, hsites⟩ := hstart
      obtain ⟨k, hk, hp⟩ := h.started t.node ht.node hsrc
      refine hnew k hk (hp.trans ?_)
      simp [PathNode.position, Position.place, m, Exploration.discover, hsites]
    have hmem {k : PathNode} (hk : k ∈ x.nodes ∨ k = m) :
        k ∈ Exploration.nodes { x with waiting := x.waiting ++ [m] } := by
      simpa [nodes, or_assoc] using hk
    exact (h.discover hg rfl hm hnew).link hg (hmem (Or.inl hn)) he ht (hmem (Or.inr rfl)) rfl

theorem visited_reach (tag : FlowTag) (cfg : FlowConfig) (n : PathNode) (e : FlowEdge)
    (node : FlowNode) (c : CallString) (x : Exploration) :
    (reach tag cfg n e node c x).visited = x.visited := by
  unfold Exploration.reach
  split <;> simp

theorem nodes_reach (tag : FlowTag) (cfg : FlowConfig) (n : PathNode) (e : FlowEdge)
    (node : FlowNode) (c : CallString) (x : Exploration) :
    ∀ k ∈ x.nodes, k ∈ (reach tag cfg n e node c x).nodes := by
  intro k hk
  unfold Exploration.reach
  split
  · simpa using hk
  · rw [nodes_link]
    simp only [nodes, List.mem_append] at hk ⊢
    exact hk.imp_right Or.inl

/-- What becomes of an edge: it leads to some position, or it is passed over. -/
theorem follow_eq (hg : g.Valid) (hn : cfg.isBarrier n.node = false)
    (he : e ∈ g.outEdges n.node.id) :
    (∃ t, Leads g cfg n.position e t ∧
      follow tag g cfg n x e = reach tag cfg n e t.node t.context x) ∨
    ((∀ t, ¬ Leads g cfg n.position e t) ∧ follow tag g cfg n x e = x) := by
  obtain ⟨hedge, hsource⟩ := FlowGraph.mem_outEdges.mp he
  unfold follow
  cases hf : g.findNode? e.target with
  | none =>
    refine Or.inr ⟨fun t ht => ?_, rfl⟩
    exact FlowGraph.findNode?_eq_none.mp hf t.node ht.node ht.target.symm
  | some m =>
    obtain ⟨hm, hid⟩ := FlowGraph.mem_of_findNode? hf
    have hnode {t : Position} (ht : Leads g cfg n.position e t) : t.node = m :=
      hg.node_ext ht.node hm (ht.target.symm.trans hid.symm)
    by_cases hb : cfg.isBarrier m = true
    · refine Or.inr ⟨fun t ht => ?_, by simp [hb]⟩
      have hfree := ht.enters
      simp [hnode ht, hb] at hfree
    · cases hc : n.context.along e with
      | none =>
        refine Or.inr ⟨fun t ht => ?_, by simp [hb]⟩
        have := hc.symm.trans ht.context
        simp at this
      | some d =>
        refine Or.inl ⟨⟨m, d⟩, ⟨hedge, hsource, hid.symm, hm, hn, by simpa using hb, hc⟩, ?_⟩
        simp [hb]

theorem Explored.follow (hg : g.Valid) (h : Explored tag g cfg depth seen x) (hn : n ∈ x.nodes)
    (hfree : cfg.isBarrier n.node = false) (he : e ∈ g.outEdges n.node.id) :
    Explored tag g cfg depth (seen.more n [e]) (follow tag g cfg n x e) := by
  rcases follow_eq hg hfree he with ⟨t, ht, heq⟩ | ⟨hno, heq⟩
  · rw [heq]
    exact h.reach hg hn he ht
  · rw [heq]
    exact h.skip hg hn (by simpa using FlowGraph.mem_outEdges.mp he) (by simpa using hno)

theorem follow_frame (tag : FlowTag) (g : FlowGraph) (cfg : FlowConfig) (n : PathNode)
    (x : Exploration) (e : FlowEdge) :
    (follow tag g cfg n x e).visited = x.visited ∧
    ∀ k ∈ x.nodes, k ∈ (follow tag g cfg n x e).nodes := by
  unfold follow
  split
  · exact ⟨rfl, fun _ hk => hk⟩
  · split
    · exact ⟨rfl, fun _ hk => hk⟩
    · split
      · exact ⟨rfl, fun _ hk => hk⟩
      · exact ⟨visited_reach .., nodes_reach tag cfg n e _ _ x⟩

theorem Explored.followAll (hg : g.Valid) (h : Explored tag g cfg depth seen x)
    (hn : n ∈ x.nodes) (hfree : cfg.isBarrier n.node = false)
    (hes : ∀ e ∈ es, e ∈ g.outEdges n.node.id) :
    Explored tag g cfg depth (seen.more n es) (es.foldl (Exploration.follow tag g cfg n) x) ∧
    (es.foldl (Exploration.follow tag g cfg n) x).visited = x.visited := by
  induction es generalizing seen x with
  | nil => exact ⟨h.skip hg hn (by simp) (by simp), rfl⟩
  | cons e es ih =>
    have hframe := follow_frame tag g cfg n x e
    have hnext := h.follow hg hn hfree (hes e (by simp))
    have hrest := ih hnext (hframe.2 n hn) fun d hd => hes d (by simp [hd])
    rw [Seen.more_cons] at hrest
    exact ⟨hrest.1, hrest.2.trans hframe.1⟩

theorem Explored.expand (hg : g.Valid) (h : Explored tag g cfg depth seen x) (hn : n ∈ x.nodes) :
    Explored tag g cfg depth (seen.more n (g.outEdges n.node.id))
      (Exploration.expand tag g cfg n x) ∧
    (Exploration.expand tag g cfg n x).visited = x.visited := by
  unfold Exploration.expand
  by_cases hb : cfg.isBarrier n.node = true
  · rw [if_pos hb]
    refine ⟨h.skip hg hn (fun _ he => he) fun e _ t ht => ?_, rfl⟩
    have hfree := ht.leaves
    simp [PathNode.position, hb] at hfree
  · rw [if_neg hb]
    exact h.followAll hg hn (by simpa using hb) fun _ he => he

/-- Between two visits all edges of the visited path nodes have been looked at, and no others. -/
def seenBy (g : FlowGraph) (visited : List PathNode) : Seen := fun n =>
  if n ∈ visited then g.outEdges n.node.id else []

theorem seenBy_append (g : FlowGraph) {visited : List PathNode} (h : n ∉ visited) :
    seenBy g (visited ++ [n]) = (seenBy g visited).more n (g.outEdges n.node.id) := by
  funext m
  by_cases hm : m = n
  · simp [seenBy, Seen.more, hm, h]
  · simp [seenBy, Seen.more, hm]

/-- An exploration between two visits. -/
def Settled (tag : FlowTag) (g : FlowGraph) (cfg : FlowConfig) (depth : Int) (x : Exploration) :
    Prop := Explored tag g cfg depth (seenBy g x.visited) x

theorem visit_eq_some (h : visit tag g cfg x = some y) :
    ∃ n rest, x.waiting = n :: rest ∧
      y = Exploration.expand tag g cfg n { x with visited := x.visited ++ [n], waiting := rest } := by
  unfold visit at h
  cases hw : x.waiting with
  | nil => simp [hw] at h
  | cons n rest =>
    rw [hw] at h
    exact ⟨n, rest, rfl, (Option.some.inj h).symm⟩

theorem nodes_dequeue {rest : List PathNode} (hw : x.waiting = n :: rest) :
    Exploration.nodes { x with visited := x.visited ++ [n], waiting := rest } = x.nodes := by
  simp [nodes, hw]

theorem Explored.dequeue {rest : List PathNode} (h : Explored tag g cfg depth seen x)
    (hw : x.waiting = n :: rest) :
    Explored tag g cfg depth seen { x with visited := x.visited ++ [n], waiting := rest } := by
  obtain ⟨h₁, h₂, h₃, h₄, h₅, h₆, h₇, h₈⟩ := h
  rw [← nodes_dequeue hw] at h₁ h₂ h₃ h₄ h₅ h₆ h₇
  exact ⟨h₁, h₂, h₃, h₄, h₅, h₆, h₇, h₈⟩

theorem Explored.not_visited {rest : List PathNode} (h : Explored tag g cfg depth seen x)
    (hw : x.waiting = n :: rest) : n ∉ x.visited := by
  intro hn
  have hdup := Explored.nodup h
  rw [nodes, hw, List.nodup_append] at hdup
  exact hdup.2.2 n hn n (by simp) rfl

/-- A visit turns one waiting path node into a visited one. -/
theorem Settled.visit (hg : g.Valid) (h : Settled tag g cfg depth x)
    (hy : visit tag g cfg x = some y) :
    Settled tag g cfg depth y ∧ y.visited.length = x.visited.length + 1 ∧
    x.visited.length < x.nodes.length := by
  obtain ⟨n, rest, hw, rfl⟩ := visit_eq_some hy
  have hmem : n ∈ Exploration.nodes { x with visited := x.visited ++ [n], waiting := rest } := by
    simp [nodes]
  obtain ⟨hexp, hvis⟩ := (Explored.dequeue h hw).expand hg hmem
  refine ⟨?_, by simp [hvis], by simp [nodes, hw]⟩
  rw [Settled, hvis, seenBy_append g (Explored.not_visited h hw)]
  exact hexp

theorem visit_preserves (hg : g.Valid) :
    Search.Preserves (visit tag g cfg) (Settled tag g cfg depth) :=
  fun _ _ h hy => (h.visit hg hy).1

theorem nodes_start : (start tag cfg depth g).nodes =
    (g.nodes.filter cfg.isSource).mapIdx fun i node =>
      Exploration.discover tag cfg i node (.empty depth) true := rfl

theorem index_start (tag : FlowTag) (cfg : FlowConfig) (depth : Int) (g : FlowGraph) :
    (start tag cfg depth g).nodes.map (·.index) =
      List.range (start tag cfg depth g).nodes.length := by
  rw [nodes_start]
  apply List.ext_getElem <;> simp [Exploration.discover]

theorem places_start (tag : FlowTag) (cfg : FlowConfig) (depth : Int) (g : FlowGraph) :
    (start tag cfg depth g).nodes.map (·.place) =
      (g.nodes.filter cfg.isSource).map fun s => (s.id, []) := by
  rw [nodes_start]
  apply List.ext_getElem <;> simp [Exploration.discover, Position.place, PathNode.position,
    CallString.empty]

theorem nodup_places_start (hids : (g.nodes.map (·.id)).Nodup) :
    ((start tag cfg depth g).nodes.map (·.place)).Nodup := by
  rw [places_start]
  have hsources : ((g.nodes.filter cfg.isSource).map (·.id)).Nodup :=
    hids.sublist (List.filter_sublist.map _)
  simpa [Function.comp_def] using hsources.map fun a b (hab : (a, ([] : List Json)) = (b, [])) =>
    (Prod.mk.inj hab).1

theorem mem_start (hn : n ∈ (start tag cfg depth g).nodes) :
    ∃ i, ∃ s ∈ g.nodes, cfg.isSource s = true ∧
      n = Exploration.discover tag cfg i s (.empty depth) true := by
  rw [nodes_start, List.mem_mapIdx] at hn
  obtain ⟨i, hi, rfl⟩ := hn
  obtain ⟨hs, hsrc⟩ := List.mem_filter.mp (List.getElem_mem hi)
  exact ⟨i, _, hs, hsrc, rfl⟩

theorem start_settled (hg : g.Valid) : Settled tag g cfg depth (start tag cfg depth g) := by
  refine ⟨index_start tag cfg depth g, nodup_places_start hg.ids, ?_, ?_, by simp [seenBy, start],
    by simp [seenBy, start], ?_, by simp [start]⟩
  · intro n hn
    obtain ⟨i, s, hs, hsrc, rfl⟩ := mem_start hn
    exact ⟨rfl, ⟨s, hs, hsrc, .refl⟩, by simp [Exploration.discover, hsrc, CallString.empty], rfl⟩
  · intro s hs hsrc
    have hp : (s.id, ([] : List Json)) ∈ (start tag cfg depth g).nodes.map (·.place) := by
      rw [places_start]
      exact List.mem_map.mpr ⟨s, List.mem_filter.mpr ⟨hs, hsrc⟩, rfl⟩
    obtain ⟨n, hn, hnp⟩ := List.mem_map.mp hp
    exact ⟨n, hn, hnp⟩
  · simp [seenBy, start]

end Lockstep.Exploration
