import Mathlib.Data.List.Induction
import Lockstep.Flow.Settled
import Lockstep.Proofs.Flow.Complete
import Lockstep.Proofs.Flow.Tables
/-!
Filling the tables is exploring. A builder represents an exploration if its tables hold the path
nodes and links of the exploration and the same path nodes wait. Each round of the builder is a
visit of the exploration, and fails only where a context has a site that cannot name anything.
-/

set_option autoImplicit false

namespace Lockstep

def PathNode.bare (n : PathNode) : Occurrence := ⟨n.index, n.tag, n.node, n.context⟩

def Link.bare (l : Link) : Step := ⟨l.source.bare, l.target.bare, l.edge⟩

theorem PathNode.key_bare (n : PathNode) : n.bare.key = n.place := rfl

namespace Exploration

variable {tag : FlowTag} {g : FlowGraph} {cfg : FlowConfig} {depth : Int} {seen : Seen}
  {x y : Exploration} {n m : PathNode} {e : FlowEdge} {es : List FlowEdge}

/-- Each place has one path node, and links lead from path nodes to path nodes. -/
structure Tidy (x : Exploration) : Prop where
  places : (x.nodes.map (·.place)).Nodup
  ends : ∀ l ∈ x.links, l.source ∈ x.nodes ∧ l.target ∈ x.nodes

theorem Explored.tidy (h : Explored tag g cfg depth seen x) : x.Tidy where
  places := h.places
  ends l hl := by
    obtain ⟨htarget, hfirst⟩ := (h.link_iff l).mp hl
    exact ⟨(h.seen_mem _ _ (List.mem_of_find?_eq_some hfirst)).1, htarget⟩

theorem Tidy.discover (h : x.Tidy) (hnew : ∀ k ∈ x.nodes, k.place ≠ m.place) :
    Tidy { x with waiting := x.waiting ++ [m] } := by
  have hnodes : Exploration.nodes { x with waiting := x.waiting ++ [m] } = x.nodes ++ [m] := by
    simp [nodes]
  refine ⟨?_, fun l hl => ?_⟩
  · rw [hnodes, List.map_append, List.nodup_append]
    refine ⟨h.places, by simp, fun a ha b hb hab => ?_⟩
    obtain ⟨k, hk, rfl⟩ := List.mem_map.mp ha
    exact hnew k hk (hab.trans (by simpa using hb))
  · rw [hnodes]
    exact (h.ends l hl).imp (List.mem_append_left _) (List.mem_append_left _)

theorem Tidy.bare_inj (h : x.Tidy) (hn : n ∈ x.nodes) (hm : m ∈ x.nodes) :
    n.bare = m.bare ↔ n = m :=
  ⟨fun hb => List.inj_on_of_nodup_map h.places hn hm (congrArg Occurrence.key hb), congrArg _⟩

theorem Tidy.nodup_bare (h : x.Tidy) : (x.nodes.map PathNode.bare).Nodup :=
  List.Nodup.map_on (fun _ hn _ hm => (h.bare_inj hn hm).mp) h.places.of_map

theorem Tidy.endsIn (h : x.Tidy) :
    PathStore.EndsIn (x.nodes.map PathNode.bare) (x.links.map Link.bare) := by
  intro l hl
  obtain ⟨k, hk, rfl⟩ := List.mem_map.mp hl
  exact (h.ends k hk).imp List.mem_map_of_mem List.mem_map_of_mem

theorem nodes_followAll (es : List FlowEdge) (x : Exploration) :
    ∀ k ∈ x.nodes, k ∈ (es.foldl (follow tag g cfg n) x).nodes := by
  induction es generalizing x with
  | nil => exact fun _ hk => hk
  | cons e es ih => exact fun k hk => ih _ k ((follow_frame tag g cfg n x e).2 k hk)

theorem nodes_visit (hy : visit tag g cfg x = some y) : ∀ k ∈ x.nodes, k ∈ y.nodes := by
  obtain ⟨n, rest, hw, rfl⟩ := visit_eq_some hy
  intro k hk
  rw [← nodes_dequeue hw] at hk
  unfold expand
  split
  · exact hk
  · exact nodes_followAll _ _ k hk

/-- What could not be looked up stays there. -/
theorem isNameable_mono (h : ∀ k ∈ x.nodes, k ∈ y.nodes) (hx : x.isNameable = false) :
    y.isNameable = false := by
  rw [← Bool.not_eq_true] at hx ⊢
  exact fun hy => hx (List.all_eq_true.mpr fun k hk => List.all_eq_true.mp hy k (h k hk))

theorem isNameable_iff : x.isNameable = true ↔
    ∀ n ∈ x.nodes, n.context.sites.find? (!·.isScalar) = none := by
  simp [isNameable]

/-- After a step to a place there is a path node in that place. -/
theorem exists_reach (tag : FlowTag) (cfg : FlowConfig) (n : PathNode) (e : FlowEdge)
    (node : FlowNode) (c : CallString) (x : Exploration) :
    ∃ k ∈ (reach tag cfg n e node c x).nodes, k.context.sites = c.sites := by
  unfold reach
  cases hf : x.nodes.find? (·.isAt node.id c.sites) with
  | some m =>
    have hat : m.isAt node.id c.sites = true := by simpa using List.find?_some hf
    have hm : m ∈ (x.link n m e).nodes := by simpa using List.mem_of_find?_eq_some hf
    exact ⟨m, hm, congrArg Prod.snd (PathNode.isAt_iff.mp hat)⟩
  | none =>
    let k := discover tag cfg x.nodes.length node c false
    have hk : k ∈ Exploration.nodes { x with waiting := x.waiting ++ [k] } := by simp [nodes]
    exact ⟨k, by rwa [nodes_link], rfl⟩

end Exploration

namespace PathStore.Builder

open Exploration

/-- The builder stands where the exploration stands. -/
structure Represents (tag : FlowTag) (b : Builder) (x : Exploration) : Prop where
  tag : b.store.tag = tag
  holds : b.store.Holds (x.nodes.map PathNode.bare) (x.links.map Link.bare)
  waiting : b.waiting = x.waiting.map PathNode.bare
  sourceFlags : b.store.sourceFlags = (x.nodes.filter (·.isSource)).map PathNode.bare
  sinkFlags : b.store.sinkFlags = (x.visited.filter (·.isSink)).map PathNode.bare
  nameable : x.isNameable = true

/-- What has become of a builder where the exploration stands: it has come there too, unless the
exploration has met a context that cannot be looked up. -/
inductive Keeps (tag : FlowTag) : Except Fault Builder → Exploration → Prop
  | ok {b : Builder} {x : Exploration} : b.Represents tag x → Keeps tag (.ok b) x
  | refused {x : Exploration} (v : Json) : x.isNameable = false → Keeps tag (.error (.notName v)) x

variable {tag : FlowTag} {g : FlowGraph} {cfg : FlowConfig} {depth : Int} {seen : Seen}
  {b : Builder} {x : Exploration} {n m : PathNode} {e : FlowEdge} {es : List FlowEdge}

theorem find?_bare (x : Exploration) (id : Text) (sites : List Json) :
    ((x.nodes.map PathNode.bare).find? fun o => decide (o.key = (id, sites))) =
      (x.nodes.find? (·.isAt id sites)).map PathNode.bare := by
  rw [List.find?_map]
  congr 2
  funext n
  rw [Function.comp_apply, PathNode.key_bare, ← Bool.coe_iff_coe, decide_eq_true_iff,
    PathNode.isAt_iff]

theorem Represents.intern (h : b.Represents tag x) (cfg : FlowConfig) (node : FlowNode)
    {context : CallString} (hnamed : context.sites.find? (!·.isScalar) = none) (isSource : Bool) :
    b.store.intern node context =
      match x.nodes.find? (·.isAt node.id context.sites) with
      | some m => .ok (m.bare, false, b.store)
      | none =>
        let m := discover tag cfg x.nodes.length node context isSource
        .ok (m.bare, true, b.store.add m.bare) := by
  rw [h.holds.intern hnamed, find?_bare, List.length_map, h.tag]
  cases x.nodes.find? (·.isAt node.id context.sites) <;> rfl

/-- A path node that is met for the first time, with its flag if it is a source. -/
theorem Represents.add (h : b.Represents tag x) (hx : x.Tidy)
    (hnew : ∀ k ∈ x.nodes, k.place ≠ m.place)
    (hnamed : m.context.sites.find? (!·.isScalar) = none) :
    (Builder.mk { b.store.add m.bare with
      sourceFlags := ((x.nodes ++ [m]).filter (·.isSource)).map PathNode.bare }
      (b.waiting ++ [m.bare])).Represents tag { x with waiting := x.waiting ++ [m] } := by
  have hnodes : Exploration.nodes { x with waiting := x.waiting ++ [m] } = x.nodes ++ [m] := by
    simp [Exploration.nodes]
  refine ⟨h.tag, ?_, by simp [h.waiting], by rw [hnodes], h.sinkFlags, ?_⟩
  · have hholds : (b.store.add m.bare).Holds (x.nodes.map PathNode.bare ++ [m.bare])
        (x.links.map Link.bare) := by
      refine h.holds.add hx.endsIn fun o ho => ?_
      obtain ⟨k, hk, rfl⟩ := List.mem_map.mp ho
      exact hnew k hk
    rw [hnodes, List.map_append]
    exact ⟨hholds.interned, hholds.leaving, hholds.entering⟩
  · rw [isNameable_iff, hnodes]
    intro k hk
    rcases List.mem_append.mp hk with hk | hk
    · exact isNameable_iff.mp h.nameable k hk
    · rwa [List.mem_singleton.mp hk]

theorem Represents.link (h : b.Represents tag x) (hx : x.Tidy) (hn : n ∈ x.nodes)
    (hm : m ∈ x.nodes) (e : FlowEdge) :
    ∃ s, b.store.link n.bare m.bare e = .ok s ∧
      (Builder.mk s b.waiting).Represents tag (x.link n m e) := by
  obtain ⟨s, hs, hframe, hholds⟩ := h.holds.link hx.nodup_bare (List.mem_map_of_mem hn)
    (List.mem_map_of_mem hm) e
  have hany : ((x.links.map Link.bare).any fun l =>
      decide (l.source = n.bare) && decide (l.target = m.bare)) =
      x.links.any fun l => l.source == n && l.target == m := by
    rw [List.any_map, ← Bool.coe_iff_coe, List.any_eq_true, List.any_eq_true]
    refine exists_congr fun l => and_congr_right fun hl => ?_
    obtain ⟨hs, ht⟩ := hx.ends l hl
    simp [Link.bare, hx.bare_inj hs hn, hx.bare_inj ht hm]
  rw [hany] at hholds
  refine ⟨s, hs, ?_⟩
  rw [hframe] at hholds ⊢
  unfold Exploration.link
  by_cases hknown : (x.links.any fun l => l.source == n && l.target == m) = true
  · rw [if_pos hknown] at hholds ⊢
    exact { h with holds := hholds }
  · have hlinks : List.map Link.bare (x.links ++ [⟨n, m, e⟩]) =
        x.links.map Link.bare ++ [⟨n.bare, m.bare, e⟩] := List.map_append
    rw [if_neg hknown, ← hlinks] at hholds
    rw [if_neg hknown]
    exact { h with holds := hholds }

theorem Represents.reach (h : b.Represents tag x) (hx : x.Tidy) (hn : n ∈ x.nodes) (e : FlowEdge)
    (node : FlowNode) (context : CallString) :
    Keeps tag (Builder.reach n.bare e node context b)
      (Exploration.reach tag cfg n e node context x) := by
  unfold Builder.reach
  cases hnamed : context.sites.find? (!·.isScalar) with
  | some v =>
    rw [intern_unnamed hnamed]
    refine .refused v ?_
    obtain ⟨k, hk, hsites⟩ := exists_reach tag cfg n e node context x
    rw [← Bool.not_eq_true, isNameable_iff]
    intro hall
    have hnone := hall k hk
    rw [hsites, hnamed] at hnone
    cases hnone
  | none =>
    rw [h.intern cfg node hnamed false]
    unfold Exploration.reach
    cases hf : x.nodes.find? (·.isAt node.id context.sites) with
    | some m =>
      obtain ⟨s, hs, hrep⟩ := h.link hx hn (List.mem_of_find?_eq_some hf) e
      simp only [bind, Except.bind, hs]
      exact .ok hrep
    | none =>
      let m := discover tag cfg x.nodes.length node context false
      have hnew : ∀ k ∈ x.nodes, k.place ≠ m.place := fun k hk hp =>
        List.find?_eq_none.mp hf k hk (PathNode.isAt_iff.mpr hp)
      have hmem {k : PathNode} (hk : k ∈ x.nodes ∨ k = m) :
          k ∈ Exploration.nodes { x with waiting := x.waiting ++ [m] } := by
        simpa [Exploration.nodes, or_assoc] using hk
      have hadd := h.add hx hnew hnamed
      have hflags : ((x.nodes ++ [m]).filter (·.isSource)).map PathNode.bare =
          b.store.sourceFlags := by
        have hm : m.isSource = false := rfl
        rw [h.sourceFlags, List.filter_append, List.filter_cons_of_neg (by simp [hm])]
        simp
      rw [hflags] at hadd
      obtain ⟨s, hs, hrep⟩ := hadd.link (hx.discover hnew) (hmem (Or.inl hn)) (hmem (Or.inr rfl)) e
      have hs' : (b.store.add m.bare).link n.bare m.bare e = .ok s := hs
      simp only [bind, Except.bind]
      rw [hs']
      exact .ok hrep

theorem Represents.follow (hg : g.Valid) (h : b.Represents tag x) (hx : x.Tidy) (hn : n ∈ x.nodes)
    (he : e ∈ g.edges) :
    Keeps tag (Builder.follow g cfg n.bare b e) (Exploration.follow tag g cfg n x e) := by
  obtain ⟨m, hm, hid⟩ := hg.target_mem e he
  have hfind : g.findNode? e.target = some m := hg.findNode?_eq_some.mpr ⟨hm, hid⟩
  unfold Builder.follow Exploration.follow FlowGraph.node
  rw [hfind]
  by_cases hb : cfg.isBarrier m = true
  · simp only [if_pos hb]
    exact .ok h
  · simp only [if_neg hb]
    have hcontext : n.bare.context = n.context := rfl
    rw [hcontext]
    cases n.context.along e with
    | none => exact .ok h
    | some context => exact h.reach hx hn e m context

theorem Represents.followAll (hg : g.Valid) (h : b.Represents tag x)
    (hx : Explored tag g cfg depth seen x) (hn : n ∈ x.nodes)
    (hfree : cfg.isBarrier n.node = false) (hes : ∀ e ∈ es, e ∈ g.outEdges n.node.id) :
    Keeps tag (es.foldlM (Builder.follow g cfg n.bare) b)
      (es.foldl (Exploration.follow tag g cfg n) x) := by
  induction es generalizing b seen x with
  | nil => exact .ok h
  | cons e es ih =>
    obtain ⟨he, hes⟩ := List.forall_mem_cons.mp hes
    have hstep : Keeps tag (Builder.follow g cfg n.bare b e) (Exploration.follow tag g cfg n x e) :=
      h.follow hg hx.tidy hn (FlowGraph.mem_outEdges.mp he).1
    rw [List.foldlM_cons, List.foldl_cons]
    generalize hr : Builder.follow g cfg n.bare b e = r at hstep
    cases hstep with
    | ok h' =>
      exact ih h' (hx.follow hg hn hfree he) ((follow_frame tag g cfg n x e).2 n hn) hes
    | refused v hbad => exact .refused v (isNameable_mono (nodes_followAll es _) hbad)

theorem Represents.take {rest : List PathNode} (h : b.Represents tag x)
    (hsink : n.isSink = cfg.isSink n.node) (hw : x.waiting = n :: rest) :
    (b.take cfg n.bare (rest.map PathNode.bare)).Represents tag
      { x with visited := x.visited ++ [n], waiting := rest } := by
  have hstore : (b.take cfg n.bare (rest.map PathNode.bare)).store = { b.store with
      sinkFlags := ((x.visited ++ [n]).filter (·.isSink)).map PathNode.bare } := by
    have hnode : n.bare.node = n.node := rfl
    unfold Builder.take
    rw [hnode, ← hsink, List.filter_append, List.map_append, ← h.sinkFlags]
    by_cases hflag : n.isSink = true <;> simp [hflag]
  refine ⟨?_, ?_, rfl, ?_, ?_, ?_⟩
  · rw [hstore]
    exact h.tag
  · rw [hstore, nodes_dequeue hw]
    exact ⟨h.holds.interned, h.holds.leaving, h.holds.entering⟩
  · rw [hstore, nodes_dequeue hw]
    exact h.sourceFlags
  · rw [hstore]
  · rw [isNameable_iff, nodes_dequeue hw]
    exact isNameable_iff.mp h.nameable

theorem Represents.expand (hg : g.Valid) (h : b.Represents tag x)
    (hx : Explored tag g cfg depth seen x) (hn : n ∈ x.nodes) :
    Keeps tag (Builder.expand g cfg n.bare b) (Exploration.expand tag g cfg n x) := by
  have hnode : n.bare.node = n.node := rfl
  unfold Builder.expand Exploration.expand
  rw [hnode]
  by_cases hb : cfg.isBarrier n.node = true
  · rw [if_pos hb, if_pos hb]
    exact .ok h
  · rw [if_neg hb, if_neg hb]
    exact h.followAll hg hx hn (by simpa using hb) fun _ he => he

theorem Keeps.round (hg : g.Valid) {r : Except Fault Builder} (h : Keeps tag r x)
    (hx : Settled tag g cfg depth x) :
    Keeps tag ((Builder.round g cfg r).getD r) ((Exploration.visit tag g cfg x).getD x) := by
  cases h with
  | @ok b _ h =>
    cases hw : x.waiting with
    | nil =>
      have hb : b.waiting = [] := by rw [h.waiting, hw, List.map_nil]
      simpa [Builder.round, Builder.visit, hb, Exploration.visit, hw] using Keeps.ok h
    | cons n rest =>
      have hb : b.waiting = n.bare :: rest.map PathNode.bare := by rw [h.waiting, hw, List.map_cons]
      have hn : n ∈ Exploration.nodes { x with visited := x.visited ++ [n], waiting := rest } := by
        simp [Exploration.nodes]
      have hsink : n.isSink = cfg.isSink n.node := (hx.arrived n (nodes_dequeue hw ▸ hn)).sink
      simpa [Builder.round, Builder.visit, hb, Exploration.visit, hw] using
        (h.take hsink hw).expand hg (hx.dequeue hw) hn
  | refused v hbad =>
    refine .refused v ?_
    cases hy : Exploration.visit tag g cfg x with
    | none => exact hbad
    | some y => exact isNameable_mono (nodes_visit hy) hbad

theorem start_append (tag : FlowTag) (g : FlowGraph) (cfg : FlowConfig) (depth : Int)
    (ns : List FlowNode) (s : FlowNode) (hs : cfg.isSource s = true) :
    let x := Exploration.start tag cfg depth { g with nodes := ns }
    Exploration.start tag cfg depth { g with nodes := ns ++ [s] } = { x with
      waiting := x.waiting ++ [discover tag cfg x.nodes.length s (.empty depth) true] } := by
  simp [Exploration.start, Exploration.nodes, hs]

/-- A source is met at a place where nothing has been met before. -/
theorem Represents.seed {ns : List FlowNode} {s : FlowNode}
    (hids : ((ns ++ [s]).map (·.id)).Nodup)
    (h : b.Represents tag (Exploration.start tag cfg depth { g with nodes := ns })) :
    ∃ c, Builder.seed cfg depth b s = .ok c ∧
      c.Represents tag (Exploration.start tag cfg depth { g with nodes := ns ++ [s] }) := by
  rw [List.map_append, List.nodup_append] at hids
  by_cases hs : cfg.isSource s = true
  · let x := Exploration.start tag cfg depth { g with nodes := ns }
    let m := discover tag cfg x.nodes.length s (.empty depth) true
    have hnamed : (CallString.sites (.empty depth)).find? (!·.isScalar) = none := rfl
    have hx : x.Tidy := ⟨nodup_places_start hids.1, by simp [x, Exploration.start]⟩
    have hnew : ∀ k ∈ x.nodes, k.place ≠ m.place := by
      intro k hk hp
      obtain ⟨i, t, ht, -, rfl⟩ := mem_start hk
      exact hids.2.2 t.id (List.mem_map_of_mem ht) s.id (by simp) (congrArg Prod.fst hp)
    have hnone : x.nodes.find? (·.isAt s.id (CallString.sites (.empty depth))) = none :=
      List.find?_eq_none.mpr fun k hk hat => hnew k hk (PathNode.isAt_iff.mp hat)
    have hflags : ((x.nodes ++ [m]).filter (·.isSource)).map PathNode.bare =
        b.store.sourceFlags ++ [m.bare] := by
      rw [h.sourceFlags, List.filter_append, List.map_append]
      rfl
    have hadd := h.add hx hnew hnamed
    rw [hflags] at hadd
    refine ⟨_, ?_, (start_append tag g cfg depth ns s hs) ▸ hadd⟩
    unfold Builder.seed
    rw [if_pos hs, h.intern cfg s hnamed true, hnone]
    rfl
  · have hsame : Exploration.start tag cfg depth { g with nodes := ns ++ [s] } =
        Exploration.start tag cfg depth { g with nodes := ns } := by
      simp [Exploration.start, hs]
    exact ⟨b, by rw [Builder.seed, if_neg hs], hsame ▸ h⟩

/-- Between two rounds of the first loop the sources so far have been met. -/
theorem seed_represents (tag : FlowTag) (g : FlowGraph) (cfg : FlowConfig) (depth : Int)
    {ns : List FlowNode} (hids : (ns.map (·.id)).Nodup) :
    ∃ b, ns.foldlM (Builder.seed cfg depth) ⟨.empty tag, []⟩ = .ok b ∧
      b.Represents tag (Exploration.start tag cfg depth { g with nodes := ns }) := by
  induction ns using List.reverseRecOn with
  | nil => exact ⟨_, rfl, rfl, holds_empty tag, rfl, rfl, rfl, rfl⟩
  | append_singleton ns s ih =>
    obtain ⟨b, hb, h⟩ := ih (hids.sublist ((List.sublist_append_left ns [s]).map _))
    have hfold : (ns ++ [s]).foldlM (Builder.seed cfg depth) ⟨.empty tag, []⟩ =
        Builder.seed cfg depth b s := by
      rw [List.foldlM_append, hb]
      exact bind_pure (Builder.seed cfg depth b s)
    rw [hfold]
    exact h.seed hids

/-- Between two rounds of the second loop the builder stands where the exploration stands. -/
theorem iterate_keeps (hg : g.Valid) (k : Nat) :
    Keeps tag (Search.iterate (Builder.round g cfg) k (Builder.start tag g cfg depth))
        (Search.iterate (Exploration.visit tag g cfg) k (Exploration.start tag cfg depth g)) ∧
      Settled tag g cfg depth
        (Search.iterate (Exploration.visit tag g cfg) k (Exploration.start tag cfg depth g)) := by
  obtain ⟨b, hb, h⟩ := seed_represents tag g cfg depth hg.ids
  refine Search.iterate_relates (R := fun r x => Keeps tag r x ∧ Settled tag g cfg depth x)
    (fun r x hrx => ⟨hrx.1.round hg hrx.2, ?_⟩) k ⟨?_, start_settled hg⟩
  · cases hy : Exploration.visit tag g cfg x with
    | none => exact hrx.2
    | some y => exact (hrx.2.visit hg hy).1
  · rw [Builder.start, hb]
    exact .ok h

theorem complete_keeps (hg : g.Valid) :
    Keeps tag (Builder.complete tag g cfg depth) (Exploration.complete tag g cfg depth) := by
  rw [Builder.complete, Exploration.complete, Search.exhaust_eq_iterate, Search.exhaust_eq_iterate]
  exact (iterate_keeps hg _).1

end PathStore.Builder
end Lockstep
