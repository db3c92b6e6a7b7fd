import Lockstep.Pair.Table
import Lockstep.Proofs.Correlation.Places
/-!
Graphs and declarations that lie within others. Where nodes and edges are kept, the edge that comes
first between two positions still comes first, and nothing becomes a barrier, two flows can do whatever
they could do before. So a journey stays a journey, if its sources still are a pair and both flows can
still come to sinks from where it ends.
-/

set_option autoImplicit false

namespace Lockstep

/-- Whatever two flows do in the one graph they can do in the other, under this policy. -/
structure Embeds (policy : SyncPolicy) (g g' : FlowGraph) (pairs pairs' : PairConfig) : Prop where
  node : ∀ n ∈ g.nodes, n ∈ g'.nodes
  edge : ∀ e ∈ g.edges, e ∈ g'.edges
  first : policy = .callSite → ∀ s t, ∀ d ∈ (g.between s t).head?, d ∈ (g'.between s t).head?
  barrier : ∀ side n, pairs'.isBarrier side n = true → pairs.isBarrier side n = true

variable {policy : SyncPolicy} {g g' : FlowGraph} {pairs pairs' : PairConfig}
  {config : CorrelationConfig} {side : Side} {n : Nat} {a b : FlowNode} {s t : Position}
  {p q : Position × Position}

theorem Embeds.of_barrier
    (h : ∀ side n, pairs'.isBarrier side n = true → pairs.isBarrier side n = true) :
    Embeds policy g g pairs pairs' :=
  ⟨fun _ hn => hn, fun _ he => he, fun _ _ _ _ hd => hd, h⟩

theorem PairTable.embeds {t t' : PairTable} (h : ∀ side, t'.barriers side ⊆ t.barriers side) :
    Embeds policy g g t.config t'.config := by
  refine .of_barrier fun side n hb => ?_
  rw [PairTable.isBarrier_config, List.contains_iff_mem] at hb ⊢
  exact h side hb

theorem Embeds.free (h : Embeds policy g g' pairs pairs') {node : FlowNode}
    (hfree : pairs.isBarrier side node = false) : pairs'.isBarrier side node = false := by
  rw [Bool.eq_false_iff] at hfree ⊢
  exact fun hb => hfree (h.barrier side node hb)

theorem Moves.embed (hm : Moves g pairs side s t) (h : Embeds policy g g' pairs pairs') :
    Moves g' pairs' side s t := by
  obtain ⟨e, he, hs, ht, hnode, hleaves, henters, hc⟩ := hm
  exact ⟨e, h.edge e he, hs, ht, h.node _ hnode, h.free hleaves, h.free henters, hc⟩

theorem PairStep.embed (hstep : PairStep g pairs p q) (h : Embeds policy g g' pairs pairs') :
    PairStep g' pairs' p q := by
  cases hstep with
  | moveA hu hr => exact .moveA (hu.embed h) hr
  | moveB hv hr => exact .moveB (hv.embed h) hr
  | joint hu hv hr hne => exact .joint (hu.embed h) (hv.embed h) hr hne

theorem Embeds.permits (h : Embeds policy g g' pairs pairs') (hp : policy.Permits g p q) :
    policy.Permits g' p q := by
  intro hpolicy hne
  obtain ⟨d₁, h₁, d₂, h₂, hagree⟩ := hp hpolicy hne
  exact ⟨d₁, h.first hpolicy _ _ d₁ h₁, d₂, h.first hpolicy _ _ d₂ h₂, hagree⟩

theorem PairRun.embed (hrun : PairRun g pairs policy p n q) (h : Embeds policy g g' pairs pairs') :
    PairRun g' pairs' policy p n q := by
  induction hrun with
  | start => exact .start
  | step _ hstep hp ih => exact ih.step (hstep.embed h) (h.permits hp)

theorem Walk.embed (hw : Walk g (pairs.single g side) s t) (h : Embeds policy g g' pairs pairs') :
    Walk g' (pairs'.single g' side) s t := hw.of_moves fun hm => hm.embed h

theorem Embeds.isSink (h : Embeds policy g g' pairs pairs') (hg : g.Valid) (hg' : g'.Valid)
    (hsinks : ∀ x y, pairs.isSinkPair x y = true → pairs'.isSinkPair x y = true) {node : FlowNode}
    (hnode : node ∈ g.nodes) (hsink : (pairs.single g side).isSink node = true) :
    (pairs'.single g' side).isSink node = true := by
  obtain ⟨⟨x, y⟩, hp, hpair, hmember⟩ := (Projection.isSink_config hg hnode).mp hsink
  obtain ⟨hx, hy, hr⟩ := hg.mem_routinePairs.mp hp
  have hp' := hg'.mem_routinePairs.mpr ⟨h.node x hx, h.node y hy, hr⟩
  exact (Projection.isSink_config hg' (h.node node hnode)).mpr ⟨_, hp', hsinks x y hpair, hmember⟩

theorem Escapes.embed (he : Escapes g (pairs.single g side) s)
    (h : Embeds policy g g' pairs pairs') (hg : g.Valid) (hg' : g'.Valid)
    (hsinks : ∀ x y, pairs.isSinkPair x y = true → pairs'.isSinkPair x y = true)
    (hs : s.node ∈ g.nodes) : Escapes g' (pairs'.single g' side) s := by
  obtain ⟨t, hw, hsink⟩ := he
  exact ⟨t, hw.embed h, h.isSink hg hg' hsinks (hw.mem_nodes hs) hsink⟩

theorem Journey.embed (hj : Journey g pairs config n a b s t)
    (h : Embeds config.policy g g' pairs pairs') (hpair : pairs'.isSourcePair a b = true)
    (hs : Escapes g' (pairs'.single g' .a) s) (ht : Escapes g' (pairs'.single g' .b) t) :
    Journey g' pairs' config n a b s t where
  source := ⟨h.node a hj.source.memA, h.node b hj.source.memB, hj.source.aligned, hpair⟩
  run := hj.run.embed h
  escapesA := hs
  escapesB := ht

/-- A journey stays one where all sink pairs are kept. -/
theorem Journey.embed_of_sinks (hj : Journey g pairs config n a b s t)
    (h : Embeds config.policy g g' pairs pairs') (hg : g.Valid) (hg' : g'.Valid)
    (hpair : pairs'.isSourcePair a b = true)
    (hsinks : ∀ x y, pairs.isSinkPair x y = true → pairs'.isSinkPair x y = true) :
    Journey g' pairs' config n a b s t :=
  hj.embed h hpair (hj.escapesA.embed h hg hg' hsinks hj.mem_nodes.1)
    (hj.escapesB.embed h hg hg' hsinks hj.mem_nodes.2)

/-- A journey that ends at a sink pair stays one where that pair is kept. -/
theorem Journey.embed_of_sink (hj : Journey g pairs config n a b s t)
    (h : Embeds config.policy g g' pairs pairs') (hg' : g'.Valid)
    (hpair : pairs'.isSourcePair a b = true) (hsink : pairs'.isSinkPair s.node t.node = true) :
    Journey g' pairs' config n a b s t := by
  have hescapes := Engine.escapes_of_sinkPair hg' (h.node _ hj.mem_nodes.1)
    (h.node _ hj.mem_nodes.2) hj.aligned hsink
  exact hj.embed h hpair hescapes.1 hescapes.2

end Lockstep
