import Mathlib.Data.Set.Lattice
import Lockstep.Proofs.Correlation.Embedding
/-!
Independence of pairs. A finding depends on the one source pair that it comes from and on the one sink
pair that it ends at, so that each of them can be looked for by itself. What is recorded on the way
depends on all sink pairs, since either flow may be on its way to any of them, but still on one source
pair only.
-/

set_option autoImplicit false

namespace Lockstep

/-- One source pair and one sink pair, and all the barriers. -/
def PairTable.only (t : PairTable) (source sink : Text × Text) : PairTable :=
  { t with sources := [source], sinks := [sink] }

/-- Other source pairs, and the same sink pairs and barriers. -/
def PairTable.withSources (t : PairTable) (sources : List (Text × Text)) : PairTable :=
  { t with sources := sources }

variable {g : FlowGraph} {config : CorrelationConfig} {t t' : PairTable} {k : Places} {n : Nat}

/-- A journey to a sink pair stays one by a table with the same barriers that has its two pairs. -/
theorem Journey.change_pairs {a b : FlowNode} {x y : Position} (hg : g.Valid)
    (h : Journey g t.config config n a b x y) (hbarriers : ∀ side, t'.barriers side = t.barriers side)
    (hsource : (a.id, b.id) ∈ t'.sources) (hsink : (x.node.id, y.node.id) ∈ t'.sinks) :
    Journey g t'.config config n a b x y := by
  refine h.embed_of_sink (PairTable.embeds fun side => ?_) hg ?_ ?_
  · rw [hbarriers]
    exact List.Subset.refl _
  · simpa using hsource
  · simpa using hsink

/-- Any journey stays one by a table with the same sink pairs and barriers that has its source
pair. -/
theorem Journey.change_sources {a b : FlowNode} {x y : Position} {sources : List (Text × Text)}
    (hg : g.Valid) (h : Journey g t.config config n a b x y) (hsource : (a.id, b.id) ∈ sources) :
    Journey g (t.withSources sources).config config n a b x y := by
  refine h.embed_of_sinks (PairTable.embeds fun side => ?_) hg hg ?_ fun x y hsink => ?_
  · exact List.Subset.refl _
  · simpa [PairTable.withSources] using hsource
  · simpa [PairTable.withSources] using hsink

theorem foundPlaces_only (hg : g.Valid) (hname : g.Nameable) (hmost : config.most = 0)
    (t : PairTable) : k ∈ foundPlaces g t.config config ↔
      ∃ p ∈ t.sources, ∃ q ∈ t.sinks, k ∈ foundPlaces g (t.only p q).config config := by
  have hfound (t : PairTable) : k ∈ foundPlaces g t.config config ↔
      ∃ n a b x y, Journey g t.config config n a b x y ∧ (x.node.id, y.node.id) ∈ t.sinks ∧
        k = .ofEnds a b x y := by
    simpa using (t.answers g).mem_foundPlaces hg hname hmost
  simp only [hfound]
  constructor
  · intro h
    obtain ⟨n, a, b, x, y, hj, hsink, rfl⟩ := h
    have hsource : (a.id, b.id) ∈ t.sources := by simpa using hj.source.pair
    have hj' : Journey g (t.only (a.id, b.id) (x.node.id, y.node.id)).config config n a b x y :=
      hj.change_pairs hg (fun _ => rfl) (List.mem_singleton_self _) (List.mem_singleton_self _)
    exact ⟨_, hsource, _, hsink, n, a, b, x, y, hj', List.mem_singleton_self _, rfl⟩
  · intro h
    obtain ⟨p, hp, q, hq, n, a, b, x, y, hj, hsink, rfl⟩ := h
    have hpair : (a.id, b.id) = p := by simpa [PairTable.only] using hj.source.pair
    have hends : (x.node.id, y.node.id) = q := List.mem_singleton.mp hsink
    have hj' : Journey g t.config config n a b x y :=
      hj.change_pairs hg (fun _ => rfl) (hpair ▸ hp) (hends ▸ hq)
    exact ⟨n, a, b, x, y, hj', hends ▸ hq, rfl⟩

theorem recordedPlaces_only (hg : g.Valid) (hname : g.Nameable) (hmost : config.most = 0)
    (t : PairTable) : k ∈ recordedPlaces g t.config config ↔
      ∃ p ∈ t.sources, k ∈ recordedPlaces g (t.withSources [p]).config config := by
  have hrecorded (t : PairTable) := (t.answers g).mem_recordedPlaces hg hname hmost (k := k)
  simp only [hrecorded]
  constructor
  · intro h
    obtain ⟨n, a, b, x, y, hj, rfl⟩ := h
    have hsource : (a.id, b.id) ∈ t.sources := by simpa using hj.source.pair
    exact ⟨_, hsource, n, a, b, x, y, hj.change_sources hg (List.mem_singleton_self _), rfl⟩
  · intro h
    obtain ⟨p, hp, n, a, b, x, y, hj, rfl⟩ := h
    have hpair : (a.id, b.id) = p := by simpa [PairTable.withSources] using hj.source.pair
    have hj' : Journey g ((t.withSources [p]).withSources t.sources).config config n a b x y :=
      hj.change_sources hg (hpair ▸ hp)
    exact ⟨n, a, b, x, y, hj', rfl⟩

/-- Correlating by a table finds what its source pairs and sink pairs, taken one by one, have
together. What it records for two lists of source pairs is what it records for either of them. -/
theorem correlate_independent (hg : g.Built) (hname : g.Nameable) (policy : SyncPolicy)
    (depth : Int) (t : PairTable) :
    let config : CorrelationConfig := { policy, depth, most := 0 }
    (∃ c fs, correlate g t.config config = .ok c ∧ c.findings = .ok fs) ∧
    foundPlaces g t.config config =
      ⋃ p ∈ t.sources, ⋃ q ∈ t.sinks, foundPlaces g (t.only p q).config config ∧
    ∀ sources sources' : List (Text × Text),
      recordedPlaces g (t.withSources (sources ++ sources')).config config =
        recordedPlaces g (t.withSources sources).config config ∪
          recordedPlaces g (t.withSources sources').config config := by
  intro config
  refine ⟨(t.answers g).exists_findings hg.valid hname config, ?_, fun sources sources' => ?_⟩
  · ext k
    simp only [Set.mem_iUnion, exists_prop]
    exact foundPlaces_only hg.valid hname rfl t
  · ext k
    rw [Set.mem_union, recordedPlaces_only hg.valid hname rfl (t.withSources (sources ++ sources')),
      recordedPlaces_only hg.valid hname rfl (t.withSources sources),
      recordedPlaces_only hg.valid hname rfl (t.withSources sources')]
    simp [PairTable.withSources, or_and_right, exists_or]

/-- From each of the source pairs both flows come to one of the sink pairs, and never to the other. -/
theorem correlate_independent_sample :
    let t : PairTable := {
      sources := [(['s'], ['t']), (['p'], ['p'])], sinks := [(['k'], ['l']), (['k'], ['k'])] }
    let config : CorrelationConfig := { policy := .callSite, depth := 1, most := 0 }
    FlowGraph.sample.Built ∧ FlowGraph.sample.Nameable ∧
    foundPlaces .sample t.config config =
      ⋃ p ∈ t.sources, ⋃ q ∈ t.sinks, foundPlaces .sample (t.only p q).config config ∧
    (foundPlaces .sample t.config config).Nonempty := by
  intro t config
  have hname : FlowGraph.sample.Nameable := ⟨by decide, by decide⟩
  obtain ⟨-, hfound, -⟩ := correlate_independent FlowGraph.built_sample hname .callSite 1 t
  exact ⟨FlowGraph.built_sample, hname, hfound,
    (t.answers _).nonempty_foundPlaces FlowGraph.built_sample.valid hname (by decide +kernel)⟩

end Lockstep
