import Lockstep.Proofs.Correlation.Outcome
import Lockstep.Proofs.Graph.Document
import Lockstep.Proofs.Graph.Rendering
import Lockstep.Proofs.Report.Log
import Lockstep.Report.Entry
/-!
What can be done with a graph that was read from a document. Labels, names, files and call sites are
taken over from the document as they are, and only their use shows what they are: drawing needs texts,
and a flow needs call sites that can name something, in the contexts that it meets. Whatever is found
can be reported.
-/

set_option autoImplicit false

namespace Lockstep

variable {g : FlowGraph} {pairs : PairConfig} {config : CorrelationConfig} {cfg : FlowConfig}
  {tag : FlowTag} {depth : Int}

/-- Every routine can be looked up, and so can every context that a flow of the pairs meets. -/
structure FlowGraph.Traceable (g : FlowGraph) (pairs : PairConfig) (depth : Int) : Prop where
  file : ∀ r ∈ g.routines, r.file.isScalar = true
  site : ∀ side p, Arrives g (pairs.single g side) depth p →
    ∀ s ∈ p.context.sites, s.isScalar = true

theorem FlowGraph.Nameable.traceable (h : g.Nameable) : g.Traceable pairs depth where
  file := h.file
  site side p hp s hs := by
    obtain ⟨e, he, rfl⟩ := List.mem_map.mp (hp.fits.site s hs)
    exact (Json.isScalar_key _).trans (h.callSite e (List.mem_filter.mp he).1)

theorem Exploration.isNameable_complete_iff (hg : g.Valid) :
    (complete tag g cfg depth).isNameable = true ↔
      ∀ p, Arrives g cfg depth p → ∀ s ∈ p.context.sites, s.isScalar = true := by
  simp only [isNameable, List.all_eq_true]
  constructor
  · intro h p hp s hs
    have hmet : ∃ n ∈ (complete tag g cfg depth).nodes, n.At p := exists_complete hg hp
    obtain ⟨n, hn, -, hsame⟩ := hmet
    exact h n hn s (hsame.1 ▸ hs)
  · intro h n hn
    exact h n.position ((complete_settled hg).arrived n hn).arrives

theorem PairConfig.Answers.settlesFlow_iff (h : pairs.Answers g) (hg : g.Valid) (side : Side) :
    pairs.settlesFlow g depth side = true ↔
      ∀ p, Arrives g (pairs.single g side) depth p → ∀ s ∈ p.context.sites, s.isScalar = true := by
  rw [settlesFlow, Bool.and_eq_true, Exploration.isNameable_complete_iff hg]
  exact and_iff_left (Exploration.settledBy_complete hg (h.barrier side))

theorem PairConfig.Answers.settles_iff (h : pairs.Answers g) (hg : g.Valid) :
    pairs.settles g = true ↔ ∀ r ∈ g.routines, r.file.isScalar = true := by
  rw [PairConfig.settles, Bool.and_eq_true, List.all_eq_true]
  refine and_iff_left (List.all_eq_true.mpr fun p hp => ?_)
  obtain ⟨ha, hb, -⟩ := hg.mem_routinePairs.mp hp
  rw [h.sourcePair _ ha _ hb, h.sinkPair _ ha _ hb]
  rfl

/-- With an answer to every question, a graph is correlated just if the flows can be traced. -/
theorem PairConfig.Answers.correlate_iff (h : pairs.Answers g) (hg : g.Valid) :
    (∃ c, Lockstep.correlate g pairs config = .ok c) ↔ g.Traceable pairs config.depth := by
  have hpairs := h.settles_iff hg
  have hflow (side : Side) : pairs.settlesFlow g config.depth side = true ↔ _ :=
    h.settlesFlow_iff hg side
  constructor
  · rintro ⟨c, hc⟩
    rw [correlate_eq] at hc
    split_ifs at hc with hp hA hB
    refine ⟨hpairs.mp (by simpa using hp), fun side => (hflow side).mp ?_⟩
    cases side with
    | a => simpa using hA
    | b => simpa using hB
  · intro ht
    have hfile := hpairs.mpr ht.file
    have hsite (side : Side) := (hflow side).mpr (ht.site side)
    exact ⟨_, by rw [correlate_eq, hfile, hsite .a, hsite .b]; rfl⟩

/-- A graph that was read is drawn, under any title, just if all that is drawn of it are texts and
its files can name something. It is correlated by a table just if its files and the call sites of the
contexts that the flows meet can name something; then findings are listed, and each has an entry and
a result in a log. -/
theorem ofJson_processed {v : Json} (hv : FlowGraph.ofJson v = .ok g) (title : Option Text)
    (table : PairTable) (config : CorrelationConfig) :
    ((∃ text, Dot.render g title = .ok text) ↔ g.Drawable) ∧
    ((∃ c, correlate g table.config config = .ok c) ↔ g.Traceable table.config config.depth) ∧
    ∀ c, correlate g table.config config = .ok c → ∃ fs, c.findings = .ok fs ∧
      ∀ (b : Batch) (log : Sarif.Log), b.findings = fs → b.entries.length = fs.length ∧
        (fs.foldl (Sarif.Log.add b) log).results =
          log.results ++ fs.map (Sarif.result · b.rule b.severity) := by
  have hg : g.Valid := (FlowGraph.legible_of_ofJson hv).built.valid
  refine ⟨Dot.render_iff_drawable hg title, (table.answers g).correlate_iff hg, fun c hc => ?_⟩
  obtain ⟨fs, hfs⟩ := Engine.exists_findings_outcome hg (table.answers g) config
  refine ⟨fs, (eq_outcome_of_correlate hc).symm ▸ hfs, fun b log hb => ⟨?_, ?_⟩⟩
  · rw [Batch.entries, List.length_map, hb]
  · exact Sarif.Log.results_foldl_add b log fs

theorem ofJson_processed_sample :
    let table : PairTable := { sources := [(['s'], ['t'])], sinks := [(['k'], ['l'])] }
    FlowGraph.ofJson FlowGraph.sample.toJson = .ok .sample ∧
      (∃ text, Dot.render .sample (some []) = .ok text) ∧
      ∃ c fs, correlate .sample table.config { } = .ok c ∧ c.findings = .ok fs := by
  intro table
  have hv : FlowGraph.ofJson FlowGraph.sample.toJson = .ok .sample := rfl
  obtain ⟨hdraw, hcorrelate, hfindings⟩ := ofJson_processed hv (some []) table { }
  have hname : FlowGraph.sample.Nameable := ⟨by decide, by decide⟩
  obtain ⟨c, hc⟩ := hcorrelate.mpr hname.traceable
  obtain ⟨fs, hfs, -⟩ := hfindings c hc
  exact ⟨hv, hdraw.mpr FlowGraph.drawable_sample, c, fs, hc, hfs⟩

/-- A label is a number. -/
theorem ofJson_number_label :
    let v : Json := .object [("nodes".toList, .list [.object [("id".toList, .text ['a']),
      ("routine".toList, .text ['f']), ("label".toList, .int 5)]])]
    ∃ g, FlowGraph.ofJson v = .ok g ∧ ¬ ∃ text, Dot.render g none = .ok text := by
  intro v
  refine ⟨_, rfl, ?_⟩
  rintro ⟨text, htext⟩
  cases htext

end Lockstep
