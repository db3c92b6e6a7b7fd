import Lockstep.Proofs.Flow.Stored
import Lockstep.Proofs.Flow.Termination
/-!
The tables of a path graph agree with one another, at any time while it is built and in the end.
What is interned under a key has that key, what leaves one path node enters the other with the same
edge, and that edge is the first that leads from the one to the other.
-/

set_option autoImplicit false

namespace Lockstep

namespace Occurrence

/-- The edge leads from the one node to the other and from the one context to the other. -/
structure Joins (p q : Occurrence) (e : FlowEdge) : Prop where
  source : e.source = p.node.id
  target : e.target = q.node.id
  context : ∃ c, p.context.along e = some c ∧ c.Same q.context

/-- No other edge that leaves the node comes before it and leads there too. -/
def FirstJoins (g : FlowGraph) (p q : Occurrence) (e : FlowEdge) : Prop :=
  p.Joins q e ∧ ∃ earlier later, g.outEdges p.node.id = earlier ++ e :: later ∧
    ∀ d ∈ earlier, ¬ p.Joins q d

theorem FirstJoins.mem_edges {g : FlowGraph} {p q : Occurrence} {e : FlowEdge}
    (h : FirstJoins g p q e) : e ∈ g.edges := by
  obtain ⟨-, earlier, later, hout, -⟩ := h
  have he : e ∈ g.outEdges p.node.id := by simp [hout]
  exact (FlowGraph.mem_outEdges.mp he).1

end Occurrence

namespace PathStore

/-- The tables agree with one another and with the graph. -/
structure Coherent (g : FlowGraph) (s : PathStore) : Prop where
  leaving : s.leaving.keys = s.nodes
  entering : s.entering.keys = s.nodes
  interned : ∀ k p, s.interned.get? k = some p ↔ p ∈ s.nodes ∧ k = (p.node.id, p.context.sites)
  node_mem : ∀ p ∈ s.nodes, p.node ∈ g.nodes
  nodup : ∀ p, (s.successors p).Nodup ∧ (s.predecessors p).Nodup
  mirrored : ∀ p q, q ∈ s.successors p ↔ p ∈ s.predecessors q
  step : ∀ p q, q ∈ s.successors p → p ∈ s.nodes ∧ q ∈ s.nodes ∧
    ∃ e, s.edge? p q = some e ∧ Table.get? (s.entering.row q) p = some e ∧
      e ∈ g.edges ∧ p.FirstJoins g q e
  index : s.nodes.Pairwise (·.index < ·.index)

/-- What path nodes and steps are like between which the tables agree. -/
structure Sound (g : FlowGraph) (os : List Occurrence) (ls : List Step) : Prop where
  keys : (os.map Occurrence.key).Nodup
  index : os.Pairwise (·.index < ·.index)
  node_mem : ∀ o ∈ os, o.node ∈ g.nodes
  ends : EndsIn os ls
  first : ∀ l ∈ ls, l.source.FirstJoins g l.target l.edge
  nodup : (ls.map fun l => (l.source, l.target)).Nodup

variable {tag : FlowTag} {g : FlowGraph} {cfg : FlowConfig} {depth : Int} {s : PathStore}
  {os : List Occurrence} {ls : List Step} {p q : Occurrence}

/-- What is taken away with all its steps leaves the rest sound. -/
theorem Sound.filter (h : Sound g os ls) (kept : Occurrence → Bool) : Sound g (os.filter kept)
    (ls.filter fun l => kept l.source && kept l.target) where
  keys := h.keys.sublist (List.filter_sublist.map _)
  index := h.index.sublist List.filter_sublist
  node_mem o ho := h.node_mem o (List.mem_filter.mp ho).1
  ends l hl := by
    obtain ⟨hl, hkept⟩ := List.mem_filter.mp hl
    obtain ⟨hsource, htarget⟩ := Bool.and_eq_true_iff.mp hkept
    exact ⟨List.mem_filter.mpr ⟨(h.ends l hl).1, hsource⟩,
      List.mem_filter.mpr ⟨(h.ends l hl).2, htarget⟩⟩
  first l hl := h.first l (List.mem_filter.mp hl).1
  nodup := h.nodup.sublist (List.filter_sublist.map _)

theorem Holds.mem_successors (h : s.Holds os ls) (hends : EndsIn os ls) :
    q ∈ s.successors p ↔ ∃ l ∈ ls, l.source = p ∧ l.target = q := by
  rw [successors, h.row_leaving hends, keys_row]
  simp only [List.mem_map, List.mem_filter, decide_eq_true_iff, and_assoc]

theorem Holds.mem_predecessors (h : s.Holds os ls) (hends : EndsIn os ls) :
    p ∈ s.predecessors q ↔ ∃ l ∈ ls, l.source = p ∧ l.target = q := by
  rw [predecessors, h.row_entering hends, keys_row]
  simp only [List.mem_map, List.mem_filter, decide_eq_true_iff, and_assoc]
  exact exists_congr fun l => and_congr_right fun _ => and_comm

/-- Both tables find the same edge. -/
theorem Holds.edge?_eq (h : s.Holds os ls) (hends : EndsIn os ls) :
    s.edge? p q = Table.get? (s.entering.row q) p := by
  rw [edge?, h.row_leaving hends, h.row_entering hends, get?_row, get?_row]
  simp only [Bool.and_comm]

theorem Holds.exists_edge (h : s.Holds os ls) (hends : EndsIn os ls) (hq : q ∈ s.successors p) :
    ∃ l ∈ ls, l.source = p ∧ l.target = q ∧ s.edge? p q = some l.edge := by
  obtain ⟨k, hk, hsource, htarget⟩ := (h.mem_successors hends).mp hq
  rw [edge?, h.row_leaving hends, get?_row]
  cases hf : ls.find? fun l => decide (l.source = p) && decide (l.target = q) with
  | none => simpa [hsource, htarget] using List.find?_eq_none.mp hf k hk
  | some l =>
    have hl : l.source = p ∧ l.target = q := by simpa using List.find?_some hf
    exact ⟨l, List.mem_of_find?_eq_some hf, hl.1, hl.2, rfl⟩

/-- The far ends of the steps at a path node are all different. -/
theorem nodup_row {near far : Step → Occurrence} {o : Occurrence}
    (h : (ls.map fun l => (near l, far l)).Nodup) : (row near far ls o).keys.Nodup := by
  rw [keys_row]
  refine List.Nodup.map_on (fun k hk l hl heq => ?_) (h.of_map.filter _)
  simp only [List.mem_filter, decide_eq_true_iff] at hk hl
  exact List.inj_on_of_nodup_map h hk.1 hl.1 (Prod.ext (hk.2.trans hl.2.symm) heq)

theorem Sound.coherent (hsound : Sound g os ls) (h : s.Holds os ls) : s.Coherent g where
  leaving := by rw [h.leaving, Table.keys_tabulate, h.nodes]
  entering := by rw [h.entering, Table.keys_tabulate, h.nodes]
  interned k p := by
    rw [h.interned.get?_eq_some hsound.keys, h.nodes]
    exact and_congr_right fun _ => eq_comm
  node_mem p hp := hsound.node_mem p (h.nodes ▸ hp)
  nodup p := by
    rw [successors, predecessors, h.row_leaving hsound.ends, h.row_entering hsound.ends]
    refine ⟨nodup_row hsound.nodup, nodup_row (List.Nodup.of_map Prod.swap ?_)⟩
    rw [List.map_map]
    exact hsound.nodup
  mirrored p q := by rw [h.mem_successors hsound.ends, h.mem_predecessors hsound.ends]
  step p q hq := by
    obtain ⟨l, hl, rfl, rfl, hedge⟩ := h.exists_edge hsound.ends hq
    have hfirst := hsound.first l hl
    rw [h.nodes]
    exact ⟨(hsound.ends l hl).1, (hsound.ends l hl).2, l.edge, hedge,
      h.edge?_eq hsound.ends ▸ hedge, hfirst.mem_edges, hfirst⟩
  index := h.nodes ▸ hsound.index

/-! ### While the tables are filled -/

section Filling

open Exploration

variable {seen : Seen} {x : Exploration} {n m : PathNode} {e : FlowEdge}

/-- An edge is taken from one path node to another if it joins them and neither is a barrier. -/
theorem takes_iff_joins (h : Explored tag g cfg depth seen x) (hn : n ∈ x.nodes) (hm : m ∈ x.nodes)
    (he : e ∈ g.outEdges n.node.id) : takes cfg n m e = true ↔
      (cfg.isBarrier n.node = false ∧ cfg.isBarrier m.node = false) ∧ n.bare.Joins m.bare e := by
  obtain ⟨hedge, hsource⟩ := FlowGraph.mem_outEdges.mp he
  simp only [takes, Bool.and_eq_true, Bool.not_eq_true', beq_iff_eq, Option.any_eq_true]
  constructor
  · intro htakes
    obtain ⟨⟨⟨htarget, hleaves⟩, henters⟩, c, hc, hsites⟩ := htakes
    have hbound := ((h.arrived n hn).arrives.fits.along hedge hc).bound
    exact ⟨⟨hleaves, henters⟩, hsource, htarget, c, hc, hsites,
      hbound.trans (h.arrived m hm).arrives.fits.bound.symm⟩
  · intro hjoins
    obtain ⟨⟨hleaves, henters⟩, -, htarget, c, hc, hsites, -⟩ := hjoins
    exact ⟨⟨⟨htarget, hleaves⟩, henters⟩, c, hc, hsites⟩

/-- The edge of a link is the first one if of each path node the first edges were looked at. -/
theorem firstJoins_of_link (h : Explored tag g cfg depth seen x)
    (hseen : ∀ n : PathNode, seen n <+: g.outEdges n.node.id) {l : Link} (hl : l ∈ x.links) :
    l.source.bare.FirstJoins g l.target.bare l.edge := by
  obtain ⟨hsource, htarget⟩ := h.tidy.ends l hl
  obtain ⟨later, hout⟩ := hseen l.source
  have hfirst := ((h.link_iff l).mp hl).2
  obtain ⟨htakes, earlier, rest, hsplit, hearlier⟩ := List.find?_eq_some_iff_append.mp hfirst
  have hall : g.outEdges l.source.node.id = earlier ++ l.edge :: (rest ++ later) := by
    rw [← hout, hsplit, List.append_assoc, List.cons_append]
  have hmem {d : FlowEdge} (hd : d ∈ earlier ∨ d = l.edge) : d ∈ g.outEdges l.source.node.id := by
    rw [hall, List.mem_append, List.mem_cons]
    exact hd.imp_right Or.inl
  obtain ⟨hfree, hjoins⟩ := (takes_iff_joins h hsource htarget (hmem (Or.inr rfl))).mp htakes
  refine ⟨hjoins, earlier, rest ++ later, hall, fun d hd hjoins' => ?_⟩
  have htakes' := (takes_iff_joins h hsource htarget (hmem (Or.inl hd))).mpr ⟨hfree, hjoins'⟩
  simpa [htakes'] using hearlier d hd

theorem sound_of_explored (h : Explored tag g cfg depth seen x)
    (hseen : ∀ n : PathNode, seen n <+: g.outEdges n.node.id) :
    Sound g (x.nodes.map PathNode.bare) (x.links.map Link.bare) where
  keys := by
    rw [List.map_map]
    exact h.places
  index := by
    have hrange : (x.nodes.map (·.index)).Pairwise (· < ·) := h.index ▸ List.pairwise_lt_range
    exact List.pairwise_map.mpr (List.pairwise_map.mp hrange)
  node_mem o ho := by
    obtain ⟨n, hn, rfl⟩ := List.mem_map.mp ho
    exact h.node_mem hn
  ends := h.tidy.endsIn
  first l hl := by
    obtain ⟨k, hk, rfl⟩ := List.mem_map.mp hl
    exact firstJoins_of_link h hseen hk
  nodup := by
    rw [List.map_map]
    refine List.Nodup.map_on (fun k hk l hl heq => ?_) (h.links_nodup.of_map _)
    obtain ⟨hsource, htarget⟩ := Prod.mk.inj heq
    refine List.inj_on_of_nodup_map h.links_nodup hk hl (Prod.ext ?_ ?_)
    · exact (h.tidy.bare_inj (h.tidy.ends k hk).1 (h.tidy.ends l hl).1).mp hsource
    · exact (h.tidy.bare_inj (h.tidy.ends k hk).2 (h.tidy.ends l hl).2).mp htarget

/-- Between two rounds of the first loop there are path nodes, and no steps yet. -/
theorem sound_start {ns : List FlowNode} (hns : ∀ s ∈ ns, s ∈ g.nodes)
    (hids : (ns.map (·.id)).Nodup) :
    let x := Exploration.start tag cfg depth { g with nodes := ns }
    Sound g (x.nodes.map PathNode.bare) (x.links.map Link.bare) := by
  intro x
  have hlinks : x.links = [] := rfl
  have hindex : (x.nodes.map (·.index)).Pairwise (· < ·) :=
    index_start tag cfg depth { g with nodes := ns } ▸ List.pairwise_lt_range
  refine ⟨?_, List.pairwise_map.mpr (List.pairwise_map.mp hindex), fun o ho => ?_, ?_, ?_, ?_⟩
  · rw [List.map_map]
    exact nodup_places_start hids
  · obtain ⟨n, hn, rfl⟩ := List.mem_map.mp ho
    obtain ⟨i, s, hs, -, rfl⟩ := mem_start hn
    exact hns s hs
  · simp [EndsIn, hlinks]
  · simp [hlinks]
  · simp [hlinks]

theorem seenBy_begins (g : FlowGraph) (visited : List PathNode) (n : PathNode) :
    seenBy g visited n <+: g.outEdges n.node.id := by
  unfold seenBy
  split
  · exact List.prefix_refl _
  · exact List.nil_prefix

theorem more_begins {visited : List PathNode} (hn : n ∉ visited) (j : Nat) (m : PathNode) :
    (seenBy g visited).more n ((g.outEdges n.node.id).take j) m <+: g.outEdges m.node.id := by
  unfold Seen.more
  split
  · rename_i hm
    subst hm
    simpa [seenBy, hn] using List.take_prefix j _
  · exact seenBy_begins g visited m

end Filling

/-- The stores between two rounds of any loop, and the one that is handed out in the end. -/
inductive Passes (tag : FlowTag) (g : FlowGraph) (cfg : FlowConfig) (depth : Int) :
    PathStore → Prop
  | seeding {b : Builder} (k : Nat) :
      (g.nodes.take k).foldlM (Builder.seed cfg depth) ⟨.empty tag, []⟩ = .ok b →
      Passes tag g cfg depth b.store
  | visiting {b : Builder} (k : Nat) :
      Search.iterate (Builder.round g cfg) k (Builder.start tag g cfg depth) = .ok b →
      Passes tag g cfg depth b.store
  | following {b c : Builder} {o : Occurrence} {rest : List Occurrence} (k j : Nat) :
      Search.iterate (Builder.round g cfg) k (Builder.start tag g cfg depth) = .ok b →
      b.waiting = o :: rest → cfg.isBarrier o.node = false →
      ((g.outEdges o.node.id).take j).foldlM (Builder.follow g cfg o) (b.take cfg o rest) = .ok c →
      Passes tag g cfg depth c.store
  | built {s : PathStore} : build tag g cfg depth = .ok s → Passes tag g cfg depth s

open Exploration Builder

theorem coherent_seeding (hg : g.Valid) {b : Builder} {k : Nat}
    (hb : (g.nodes.take k).foldlM (seed cfg depth) ⟨.empty tag, []⟩ = .ok b) :
    b.store.Coherent g := by
  have hids : ((g.nodes.take k).map (·.id)).Nodup :=
    hg.ids.sublist ((List.take_sublist k g.nodes).map _)
  obtain ⟨c, hc, h⟩ := seed_represents tag g cfg depth hids
  obtain rfl : c = b := Except.ok.inj (hc.symm.trans hb)
  exact (sound_start (fun _ => List.mem_of_mem_take) hids).coherent h.holds

/-- A builder after so many rounds, and the exploration after as many visits. -/
theorem exists_settled (hg : g.Valid) {b : Builder} {k : Nat}
    (hb : Search.iterate (round g cfg) k (Builder.start tag g cfg depth) = .ok b) :
    ∃ x, b.Represents tag x ∧ Settled tag g cfg depth x := by
  obtain ⟨hkeeps, hsettled⟩ :
      Keeps tag (Search.iterate (round g cfg) k (Builder.start tag g cfg depth)) _ ∧
        Settled tag g cfg depth _ := iterate_keeps hg k
  rw [hb] at hkeeps
  cases hkeeps with
  | ok h => exact ⟨_, h, hsettled⟩

theorem coherent_visiting (hg : g.Valid) {b : Builder} {k : Nat}
    (hb : Search.iterate (round g cfg) k (Builder.start tag g cfg depth) = .ok b) :
    b.store.Coherent g := by
  obtain ⟨x, h, hx⟩ := exists_settled hg hb
  exact (sound_of_explored hx (seenBy_begins g x.visited)).coherent h.holds

theorem coherent_following (hg : g.Valid) {b c : Builder} {o : Occurrence} {rest : List Occurrence}
    {k j : Nat} (hb : Search.iterate (round g cfg) k (Builder.start tag g cfg depth) = .ok b)
    (hw : b.waiting = o :: rest) (hfree : cfg.isBarrier o.node = false)
    (hc : ((g.outEdges o.node.id).take j).foldlM (follow g cfg o) (b.take cfg o rest) = .ok c) :
    c.store.Coherent g := by
  obtain ⟨x, h, hx⟩ := exists_settled hg hb
  have hwaiting := h.waiting.symm.trans hw
  obtain ⟨n, ns, hns, rfl, rfl⟩ := List.map_eq_cons_iff.mp hwaiting
  have hn : n ∈ Exploration.nodes { x with visited := x.visited ++ [n], waiting := ns } := by
    simp [Exploration.nodes]
  have hsink : n.isSink = cfg.isSink n.node := (hx.arrived n (nodes_dequeue hns ▸ hn)).sink
  have hes : ∀ e ∈ (g.outEdges n.node.id).take j, e ∈ g.outEdges n.node.id :=
    fun _ => List.mem_of_mem_take
  have hdequeued := Explored.dequeue hx hns
  have hkeeps := (h.take hsink hns).followAll hg hdequeued hn hfree hes
  obtain ⟨hexplored, -⟩ := hdequeued.followAll hg hn hfree hes
  have hseen := more_begins (g := g) (Explored.not_visited hx hns) j
  rw [show n.bare.node = n.node from rfl] at hc
  rw [hc] at hkeeps
  cases hkeeps with
  | ok h' => exact (sound_of_explored hexplored hseen).coherent h'.holds

theorem coherent_built (hg : g.Valid) {s : PathStore} (hs : build tag g cfg depth = .ok s) :
    s.Coherent g := by
  have hkeeps : Keeps tag (Builder.complete tag g cfg depth)
      (Exploration.complete tag g cfg depth) := complete_keeps hg
  have hx : Settled tag g cfg depth (Exploration.complete tag g cfg depth) := complete_settled hg
  unfold build at hs
  generalize Builder.complete tag g cfg depth = r at hkeeps hs
  cases hkeeps with
  | ok h =>
    rw [← Except.ok.inj hs]
    exact ((sound_of_explored hx (seenBy_begins g _)).filter _).coherent h.holds.prune
  | refused v _ => cases hs

/-! ### What becomes of building -/

/-- Every round succeeds if call sites are values that can name something. -/
theorem exists_iterate (hg : g.Valid) (hsites : ∀ e ∈ g.edges, e.callSite.isScalar = true)
    (k : Nat) : ∃ b, Search.iterate (round g cfg) k (Builder.start tag g cfg depth) = .ok b := by
  obtain ⟨hkeeps, hsettled⟩ :
      Keeps tag (Search.iterate (round g cfg) k (Builder.start tag g cfg depth)) _ ∧
        Settled tag g cfg depth _ := iterate_keeps hg k
  have hname := Explored.isNameable hsettled hsites
  generalize Search.iterate (round g cfg) k (Builder.start tag g cfg depth) = r at hkeeps
  cases hkeeps with
  | ok _ => exact ⟨_, rfl⟩
  | refused v hbad => exact absurd (hbad.symm.trans hname) (by decide)

theorem exists_built (hg : g.Valid) (hsites : ∀ e ∈ g.edges, e.callSite.isScalar = true) :
    ∃ s, build tag g cfg depth = .ok s := by
  obtain ⟨b, hb⟩ : ∃ b, Builder.complete tag g cfg depth = .ok b := by
    rw [Builder.complete, Search.exhaust_eq_iterate]
    exact exists_iterate hg hsites _
  exact ⟨b.store.prune, by rw [build, hb]; rfl⟩

/-- When the rounds are over nothing waits. -/
theorem waiting_of_complete (hg : g.Valid) {b : Builder}
    (hb : Builder.complete tag g cfg depth = .ok b) : b.waiting = [] := by
  have hkeeps : Keeps tag (Builder.complete tag g cfg depth)
      (Exploration.complete tag g cfg depth) := complete_keeps hg
  rw [hb] at hkeeps
  cases hkeeps with
  | ok h => rw [h.waiting, Exploration.waiting_complete hg, List.map_nil]

theorem notName_of_build (hg : g.Valid) {f : Fault} (hf : build tag g cfg depth = .error f) :
    ∃ v, f = .notName v := by
  have hkeeps : Keeps tag (Builder.complete tag g cfg depth)
      (Exploration.complete tag g cfg depth) := complete_keeps hg
  unfold build at hf
  generalize Builder.complete tag g cfg depth = r at hkeeps hf
  cases hkeeps with
  | ok _ => cases hf
  | refused v _ => exact ⟨v, (Except.error.inj hf).symm⟩

/-- Between any two rounds of any loop, and once the store is pruned, the tables agree. The rounds
end when nothing waits, and nothing but a call site that cannot name anything ends them before. -/
theorem build_coherent (hg : g.Built) (tag : FlowTag) (cfg : FlowConfig) (depth : Int) :
    (∀ s, Passes tag g cfg depth s → s.Coherent g) ∧
    (∀ b, Builder.complete tag g cfg depth = .ok b → b.waiting = []) ∧
    (∀ f, build tag g cfg depth = .error f → ∃ v, f = .notName v) ∧
    ((∀ e ∈ g.edges, e.callSite.isScalar = true) →
      (∀ k, ∃ b, Search.iterate (round g cfg) k (Builder.start tag g cfg depth) = .ok b) ∧
      ∃ s, build tag g cfg depth = .ok s) := by
  refine ⟨fun s hs => ?_, fun _ => waiting_of_complete hg.valid, fun _ => notName_of_build hg.valid,
    fun hsites => ⟨exists_iterate hg.valid hsites, exists_built hg.valid hsites⟩⟩
  cases hs with
  | seeding _ hb => exact coherent_seeding hg.valid hb
  | visiting _ hb => exact coherent_visiting hg.valid hb
  | following _ _ hb hw hfree hc => exact coherent_following hg.valid hb hw hfree hc
  | built hs => exact coherent_built hg.valid hs

/-- One value can only come back to where it came from. It is all visited, in the recursion too,
and pruning leaves the way of the other value. -/
theorem build_coherent_sample :
    let cfg := FlowConfig.ofIds [['s'], ['t']] [['l']] []
    let rounds := Search.iterate (round .sample cfg) 8
      (Builder.start ⟨['A'], 0⟩ .sample cfg 1)
    FlowGraph.sample.Built ∧ (∀ e ∈ FlowGraph.sample.edges, e.callSite.isScalar = true) ∧
    ∃ b s, rounds = .ok b ∧ build ⟨['A'], 0⟩ .sample cfg 1 = .ok s ∧
      b.store.Coherent .sample ∧ s.Coherent .sample ∧
      b.store.nodes.map (fun p => (b.store.successors p).map (·.index)) =
        [[2], [3], [4, 5], [6], [4, 7], [0], [], []] ∧
      s.nodes.map (·.index) = [1, 3, 6] := by
  intro cfg rounds
  have hsites : ∀ e ∈ FlowGraph.sample.edges, e.callSite.isScalar = true := by decide
  obtain ⟨hcoherent, -, -, hbuilds⟩ := build_coherent FlowGraph.built_sample ⟨['A'], 0⟩ cfg 1
  obtain ⟨hrounds, s, hs⟩ := hbuilds hsites
  obtain ⟨b, hb⟩ : ∃ b, rounds = .ok b := hrounds 8
  have hmet : rounds.toOption.map (fun b =>
      b.store.nodes.map fun p => (b.store.successors p).map (·.index)) =
        some [[2], [3], [4, 5], [6], [4, 7], [0], [], []] := by decide
  have hkept : (build ⟨['A'], 0⟩ .sample cfg 1).toOption.map (fun s => s.nodes.map (·.index)) =
      some [1, 3, 6] := by decide
  rw [hb] at hmet
  rw [hs] at hkept
  exact ⟨FlowGraph.built_sample, hsites, b, s, hb, hs, hcoherent _ (.visiting 8 hb),
    hcoherent _ (.built hs), Option.some.inj hmet, Option.some.inj hkept⟩

end PathStore
end Lockstep
