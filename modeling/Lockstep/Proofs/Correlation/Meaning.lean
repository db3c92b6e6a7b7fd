import Lockstep.Proofs.Correlation.Simulation
import Lockstep.Proofs.Flow.Exactness
import Lockstep.Proofs.Pair.Answers
/-!
What a correlation by routines comes to, from the graph and the declaration alone. There is a
finding exactly for the walks of two flows from a source pair to a sink pair. Neither the places
where partners are looked for nor the path nodes that are not kept lose one.
-/

set_option autoImplicit false

namespace Lockstep

open Search

variable {g : FlowGraph} {pairs : PairConfig}

theorem Exploration.settledBy_complete (hg : g.Valid) {tag : FlowTag} {cfg : FlowConfig}
    {depth : Int} {barrier : FlowNode → Option Bool}
    (h : ∀ n ∈ g.nodes, (barrier n).isSome = true) :
    (complete tag g cfg depth).settledBy g barrier = true := by
  simp only [settledBy, List.all_eq_true]
  intro n hn
  have hmem := Explored.node_mem (complete_settled hg) hn
  cases hb : barrier n.node with
  | none => simpa [hb] using h n.node hmem
  | some answer =>
    cases answer with
    | true => rfl
    | false =>
      simp only [List.all_eq_true]
      intro e _
      cases hf : g.findNode? e.target with
      | none => rfl
      | some m => exact h m (FlowGraph.mem_of_findNode? hf).1

theorem PairConfig.Answers.checkedFlow (h : pairs.Answers g) (hg : g.Valid) (hname : g.Nameable)
    (depth : Int) (side : Side) : pairs.checkedFlow g depth side = .ok (pairs.flow g depth side) := by
  have hsettles := h.settles hg hname
  have hflow : pairs.settlesFlow g depth side = true := by
    simp only [PairConfig.settlesFlow, Bool.and_eq_true]
    exact ⟨PathGraph.isNameable_complete hg hname.callSite,
      Exploration.settledBy_complete hg (h.barrier side)⟩
  simp [PairConfig.checkedFlow, hsettles, hflow]

theorem PairConfig.Answers.checked (h : pairs.Answers g) (hg : g.Valid) (hname : g.Nameable)
    (config : CorrelationConfig) : Engine.checked g pairs config = .ok (.of g pairs config) := by
  simp only [Engine.checked, h.checkedFlow hg hname]
  rfl

theorem exists_mapM_ok {ε α β : Type} {f : α → Except ε β} {back : β → α} {xs : List α}
    (h : ∀ x ∈ xs, ∃ y, f x = .ok y ∧ back y = x) :
    ∃ ys, xs.mapM f = .ok ys ∧ ys.map back = xs := by
  induction xs with
  | nil => exact ⟨[], rfl, rfl⟩
  | cons x xs ih =>
    obtain ⟨y, hy, hback⟩ := h x (by simp)
    obtain ⟨ys, hys, hbacks⟩ := ih fun z hz => h z (by simp [hz])
    refine ⟨y :: ys, ?_, by simp [hback, hbacks]⟩
    rw [List.mapM_cons, hy, hys]
    rfl

namespace Correlation

variable {c : Correlation}

/-- There are findings if each quadruple at a sink pair can be described. -/
theorem exists_findings_of_describe (h : ∀ q ∈ c.quadruples, c.isFinding q = true → ∃ t,
    c.pairs.describe q.source1.node q.source2.node q.node1.node q.node2.node = .ok t) :
    ∃ fs, c.findings = .ok fs ∧ fs.map (·.quadruple) = c.quadruples.filter c.isFinding := by
  refine exists_mapM_ok fun q hq => ?_
  obtain ⟨hmem, hsink⟩ := List.mem_filter.mp hq
  obtain ⟨t, ht⟩ := h q hmem hsink
  unfold findingOf
  rw [ht]
  exact ⟨_, rfl, rfl⟩

theorem exists_findings (h : ∀ q ∈ c.quadruples, ∃ t,
    c.pairs.describe q.source1.node q.source2.node q.node1.node q.node2.node = .ok t) :
    ∃ fs, c.findings = .ok fs ∧ fs.map (·.quadruple) = c.quadruples.filter c.isFinding :=
  exists_findings_of_describe fun q hq _ => h q hq

end Correlation

/-- A quadruple over these nodes, with these sites in the contexts that the flows have reached. -/
structure Quadruple.Over (q : Quadruple) (a b x y : FlowNode) (c d : List Json) : Prop where
  source1 : q.source1.node = a ∧ q.source1.context.sites = []
  source2 : q.source2.node = b ∧ q.source2.context.sites = []
  node1 : q.node1.node = x ∧ q.node1.context.sites = c
  node2 : q.node2.node = y ∧ q.node2.context.sites = d

theorem Quadruple.At.over {q : Quadruple} {depth : Int} {a b : FlowNode} {s t : Position}
    (h : q.At (.initial depth a) (.initial depth b) s t) :
    q.Over a b s.node t.node s.context.sites t.context.sites :=
  ⟨⟨h.source1.1, h.source1.2.1⟩, ⟨h.source2.1, h.source2.2.1⟩, ⟨h.node1.1, h.node1.2.1⟩,
    ⟨h.node2.1, h.node2.2.1⟩⟩

theorem Quadruple.Over.ext {q : Quadruple} {a b x y a' b' x' y' : FlowNode} {c d c' d' : List Json}
    (h : q.Over a b x y c d) (h' : q.Over a' b' x' y' c' d') :
    a = a' ∧ b = b' ∧ x = x' ∧ y = y' ∧ c = c' ∧ d = d' :=
  ⟨h.source1.1.symm.trans h'.source1.1, h.source2.1.symm.trans h'.source2.1,
    h.node1.1.symm.trans h'.node1.1, h.node2.1.symm.trans h'.node2.1,
    h.node1.2.symm.trans h'.node1.2, h.node2.2.symm.trans h'.node2.2⟩

namespace Engine

variable {config : CorrelationConfig} {q : Quadruple}

theorem escapes_of_sinkPair (hg : g.Valid) {s t : Position} (hs : s.node ∈ g.nodes)
    (ht : t.node ∈ g.nodes) (hr : s.node.routine = t.node.routine)
    (hpair : pairs.isSinkPair s.node t.node = true) :
    Escapes g (pairs.single g .a) s ∧ Escapes g (pairs.single g .b) t := by
  have hmem := hg.mem_routinePairs.mpr ⟨hs, ht, hr⟩
  have hsinkA : (pairs.single g .a).isSink s.node = true :=
    (Projection.isSink_config hg hs).mpr ⟨_, hmem, hpair, rfl⟩
  have hsinkB : (pairs.single g .b).isSink t.node = true :=
    (Projection.isSink_config hg ht).mpr ⟨_, hmem, hpair, rfl⟩
  exact ⟨⟨s, .refl, hsinkA⟩, ⟨t, .refl, hsinkB⟩⟩

/-- The quadruples at sink pairs that can be derived, as walks of both flows. -/
theorem exists_reached_iff (hg : g.Valid) (config : CorrelationConfig)
    (hpolicy : config.policy = .routine) (a b x y : FlowNode) (c d : List Json) :
    (∃ q, Reached (of g pairs config).next (of g pairs config).seeds q ∧
      pairs.isSinkPair q.node1.node q.node2.node = true ∧ q.Over a b x y c d) ↔
    JointSource g pairs a b ∧ pairs.isSinkPair x y = true ∧ ∃ s t : CallString, s.sites = c ∧
      t.sites = d ∧ PairWalk g pairs (.initial config.depth a, .initial config.depth b)
        (⟨x, s⟩, ⟨y, t⟩) := by
  constructor
  · intro h
    obtain ⟨q, hq, hsink, hover⟩ := h
    obtain ⟨a', b', s, t, hsource, hwalk, hat⟩ := pairWalk_of_reached hg hq
    obtain ⟨rfl, rfl, rfl, rfl, rfl, rfl⟩ := hover.ext hat.over
    rw [hat.node1.1, hat.node2.1] at hsink
    exact ⟨hsource, hsink, s.context, t.context, rfl, rfl, hwalk⟩
  · intro h
    obtain ⟨hsource, hsink, s, t, rfl, rfl, hwalk⟩ := h
    have hx : x ∈ g.nodes := (hwalk.walk .a).mem_nodes hsource.memA
    have hy : y ∈ g.nodes := (hwalk.walk .b).mem_nodes hsource.memB
    have hr : x.routine = y.routine := hwalk.aligned hsource.aligned
    obtain ⟨hs, ht⟩ := escapes_of_sinkPair (s := ⟨x, s⟩) (t := ⟨y, t⟩) hg hx hy hr hsink
    obtain ⟨q, hq, hat⟩ := reached_of_pairWalk hg hpolicy hsource hwalk hs ht
    refine ⟨q, hq, ?_, hat.over⟩
    rw [hat.node1.1, hat.node2.1]
    exact hsink

theorem exists_describe (hg : g.Valid) (hpairs : pairs.Answers g)
    (hq : Reached (of g pairs config).next (of g pairs config).seeds q) :
    ∃ t, pairs.describe q.source1.node q.source2.node q.node1.node q.node2.node = .ok t := by
  obtain ⟨⟨h₁, h₂⟩, h₃, h₄⟩ := nodes_of_reached hg hq
  exact hpairs.describe _ h₁ _ h₂ _ h₃ _ h₄

end Engine

/-- Correlating by routines, without a limit, finds exactly the walks of two flows from a source
pair to a sink pair. -/
theorem correlate_findings (hg : g.Built) (hname : g.Nameable) (pairs : PairConfig)
    (hpairs : pairs.Answers g) (depth : Int) :
    ∃ r fs, correlate g pairs { policy := .routine, depth := depth, most := 0 } = .ok r ∧
      r.findings = .ok fs ∧ ∀ a b x y c d, (∃ f ∈ fs, f.quadruple.Over a b x y c d) ↔
        JointSource g pairs a b ∧ pairs.isSinkPair x y = true ∧
        ∃ s t : CallString, s.sites = c ∧ t.sites = d ∧
          PairWalk g pairs (.initial depth a, .initial depth b) (⟨x, s⟩, ⟨y, t⟩) := by
  let config : CorrelationConfig := { policy := .routine, depth := depth, most := 0 }
  obtain ⟨hA, hB⟩ := Engine.inward_of hg.valid pairs config
  obtain ⟨r, hr, hrpairs, -, -, hmem⟩ := Engine.solve_unlimited hA hB rfl
  have hpairs' : r.pairs = pairs := hrpairs
  have hcorrelate : correlate g pairs config = .ok r := by
    unfold correlate
    rw [hpairs.checked hg.valid hname config]
    simp only [bind, Except.bind, Engine.checkedSolve, hr]
    rfl
  obtain ⟨fs, hfs, hquads⟩ := Correlation.exists_findings (c := r) fun q hq => by
    rw [hpairs']
    exact Engine.exists_describe hg.valid hpairs ((hmem q).mp hq)
  refine ⟨r, fs, hcorrelate, hfs, fun a b x y c d => ?_⟩
  rw [← Engine.exists_reached_iff hg.valid config rfl a b x y c d]
  have hfound (q : Quadruple) : q ∈ fs.map (·.quadruple) ↔
      Reached (Engine.of g pairs config).next (Engine.of g pairs config).seeds q ∧
      pairs.isSinkPair q.node1.node q.node2.node = true := by
    rw [hquads, List.mem_filter, hmem, Correlation.isFinding, hpairs']
  constructor
  · intro h
    obtain ⟨f, hf, hover⟩ := h
    obtain ⟨hq, hsink⟩ := (hfound f.quadruple).mp (List.mem_map.mpr ⟨f, hf, rfl⟩)
    exact ⟨f.quadruple, hq, hsink, hover⟩
  · intro h
    obtain ⟨q, hq, hsink, hover⟩ := h
    obtain ⟨f, hf, rfl⟩ := List.mem_map.mp ((hfound q).mpr ⟨hq, hsink⟩)
    exact ⟨f, hf, hover⟩

/-- Both values are handed to the call together, and each goes its own way from there. -/
theorem correlate_findings_sample :
    let pairs := PairTable.config { sources := [(['s'], ['t'])], sinks := [(['k'], ['l'])] }
    let caller (id : Text) : FlowNode := { id, routine := { name := .text "main".toList } }
    let callee (id : Text) : FlowNode := { id, routine := { name := .text "f".toList } }
    FlowGraph.sample.Built ∧ FlowGraph.sample.Nameable ∧ pairs.Answers .sample ∧
    ∃ r fs, correlate .sample pairs { policy := .routine, depth := 2, most := 0 } = .ok r ∧
      r.findings = .ok fs ∧ ∃ f ∈ fs, f.quadruple.Over (caller ['s']) (caller ['t'])
        (callee ['k']) (callee ['l']) [.text ['c']] [.text ['c']] := by
  intro pairs caller callee
  have hname : FlowGraph.sample.Nameable := ⟨by decide, by decide⟩
  have hpairs : pairs.Answers .sample := PairTable.answers _ _
  obtain ⟨r, fs, hr, hfs, hiff⟩ :=
    correlate_findings FlowGraph.built_sample hname pairs hpairs 2
  refine ⟨FlowGraph.built_sample, hname, hpairs, r, fs, hr, hfs, (hiff _ _ _ _ _ _).mpr ?_⟩
  let inside : CallString := ⟨[.text ['c']], [.text ['c']], 2⟩
  have hcall : PairStep .sample pairs (.initial 2 (caller ['s']), .initial 2 (caller ['t']))
      (⟨callee ['p'], inside⟩, ⟨callee ['q'], inside⟩) :=
    .joint (by unfold Moves; decide) (by unfold Moves; decide) rfl (by decide)
  have hmoveA : PairStep .sample pairs (⟨callee ['p'], inside⟩, ⟨callee ['q'], inside⟩)
      (⟨callee ['k'], inside⟩, ⟨callee ['q'], inside⟩) := .moveA (by unfold Moves; decide) rfl
  have hmoveB : PairStep .sample pairs (⟨callee ['k'], inside⟩, ⟨callee ['q'], inside⟩)
      (⟨callee ['k'], inside⟩, ⟨callee ['l'], inside⟩) := .moveB (by unfold Moves; decide) rfl
  have hsource : JointSource .sample pairs (caller ['s']) (caller ['t']) :=
    ⟨by decide, by decide, rfl, by decide⟩
  exact ⟨hsource, by decide, inside, inside, rfl, rfl,
    ((Relation.ReflTransGen.single hcall).tail hmoveA).tail hmoveB⟩

end Lockstep
