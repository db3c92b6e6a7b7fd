import Lockstep.Proofs.Correlation.Embedding
import Lockstep.Proofs.Graph.Growth
/-!
Correlations of graphs that grow. A graph that further additions have made keeps its first edge between
any two positions, so the new edges are never asked about in place of an old one. So whatever was
recorded and found is recorded and found again, and where barriers are taken away it is no less.
-/

set_option autoImplicit false

namespace Lockstep

/-- The same pairs, and other barriers. -/
def PairTable.withBarriers (t : PairTable) (barriersA barriersB : List Text) : PairTable :=
  { t with barriersA := barriersA, barriersB := barriersB }

variable {g g' : FlowGraph} {config : CorrelationConfig} {policy : SyncPolicy}
  {pairs pairs' : PairConfig} {t : PairTable} {barriersA barriersB : List Text} {n : Nat}
  {a b : FlowNode} {x y : Position}

theorem FlowGraph.Begins.nameable (h : g.Begins g') (hname : g'.Nameable) : g.Nameable where
  file r hr := hname.file r (h.routines.subset hr)
  callSite e he := hname.callSite e (h.edges.subset he)

/-- An edge that is appended comes first only where there was none. -/
theorem FlowGraph.Begins.first (h : g.Begins g') {s t : Position} {d : FlowEdge}
    (hd : d ∈ (g.between s t).head?) : d ∈ (g'.between s t).head? := by
  rw [between, List.head?_filter] at hd ⊢
  exact h.edges.find?_eq_some hd

theorem FlowGraph.Begins.embeds (h : g.Begins g')
    (hbarriers : ∀ side n, pairs'.isBarrier side n = true → pairs.isBarrier side n = true) :
    Embeds policy g g' pairs pairs' where
  node _ hn := h.nodes.subset hn
  edge _ he := h.edges.subset he
  first _ _ _ _ hd := h.first hd
  barrier := hbarriers

theorem PairTable.isBarrier_withBarriers (hA : barriersA ⊆ t.barriersA)
    (hB : barriersB ⊆ t.barriersB) {side : Side} {node : FlowNode}
    (h : (t.withBarriers barriersA barriersB).config.isBarrier side node = true) :
    t.config.isBarrier side node = true := by
  rw [isBarrier_config, List.contains_iff_mem] at h ⊢
  cases side with
  | a => exact hA h
  | b => exact hB h

theorem Journey.grow (hj : Journey g t.config config n a b x y) (hg : g.Valid) (hg' : g'.Valid)
    (h : g.Begins g') (hA : barriersA ⊆ t.barriersA) (hB : barriersB ⊆ t.barriersB) :
    Journey g' (t.withBarriers barriersA barriersB).config config n a b x y := by
  refine hj.embed_of_sinks (h.embeds fun _ _ => PairTable.isBarrier_withBarriers hA hB) hg hg' ?_
    fun _ _ hsink => ?_
  · simpa [PairTable.withBarriers] using hj.source.pair
  · simpa [PairTable.withBarriers] using hsink

/-- Neither further additions to the graph nor fewer barriers take a quadruple or a finding away. -/
theorem correlate_grows (hg : g.Built) (hgrows : g.Grows g') (hname : g'.Nameable)
    (policy : SyncPolicy) (depth : Int) (t : PairTable) (hA : barriersA ⊆ t.barriersA)
    (hB : barriersB ⊆ t.barriersB) :
    let config : CorrelationConfig := { policy, depth, most := 0 }
    let t' := t.withBarriers barriersA barriersB
    (∃ c fs, correlate g t.config config = .ok c ∧ c.findings = .ok fs) ∧
    (∃ c fs, correlate g' t'.config config = .ok c ∧ c.findings = .ok fs) ∧
    recordedPlaces g t.config config ⊆ recordedPlaces g' t'.config config ∧
    foundPlaces g t.config config ⊆ foundPlaces g' t'.config config := by
  intro config t'
  have hbegins := hgrows.begins
  have hvalid := hg.valid
  have hvalid' := (hg.grows hgrows).valid
  have hname₀ := hbegins.nameable hname
  refine ⟨(t.answers g).exists_findings hvalid hname₀ config,
    (t'.answers g').exists_findings hvalid' hname config, fun k hk => ?_, fun k hk => ?_⟩
  · rw [(t.answers g).mem_recordedPlaces hvalid hname₀ rfl] at hk
    rw [(t'.answers g').mem_recordedPlaces hvalid' hname rfl]
    obtain ⟨n, a, b, x, y, hj, hplaces⟩ := hk
    exact ⟨n, a, b, x, y, hj.grow hvalid hvalid' hbegins hA hB, hplaces⟩
  · rw [(t.answers g).mem_foundPlaces hvalid hname₀ rfl] at hk
    rw [(t'.answers g').mem_foundPlaces hvalid' hname rfl]
    obtain ⟨n, a, b, x, y, hj, hsink, hplaces⟩ := hk
    exact ⟨n, a, b, x, y, hj.grow hvalid hvalid' hbegins hA hB, hsink, hplaces⟩

/-- A second call leads beside the first one, through another call site, and flow A may pass `q`. -/
theorem correlate_grows_sample :
    let t : PairTable :=
      { sources := [(['s'], ['t'])], sinks := [(['k'], ['l'])], barriersA := [['q']] }
    let e : FlowEdge := { source := ['s'], target := ['p'], kind := .call, callSite := .text ['d'] }
    let g := FlowGraph.sample
    let g' : FlowGraph := { g with edges := g.edges ++ [e] }
    let config : CorrelationConfig := { policy := .callSite, depth := 1, most := 0 }
    g.Built ∧ g.Grows g' ∧ g'.Nameable ∧
    foundPlaces g t.config config ⊆ foundPlaces g' (t.withBarriers [] []).config config ∧
    (foundPlaces g t.config config).Nonempty := by
  intro t e g g' config
  have hgrows : g.Grows g' := .single (.edge (by rfl : g.addEdge e = .ok g'))
  have hname : g'.Nameable := ⟨by decide, by decide⟩
  obtain ⟨-, -, -, hfound⟩ := correlate_grows FlowGraph.built_sample hgrows hname .callSite 1 t
    (List.nil_subset _) (List.nil_subset _)
  exact ⟨FlowGraph.built_sample, hgrows, hname, hfound, (t.answers g).nonempty_foundPlaces
    FlowGraph.built_sample.valid (hgrows.begins.nameable hname) (by decide)⟩

end Lockstep
