import Mathlib.Logic.Equiv.Basic
import Lockstep.Proofs.Correlation.Renaming
import Lockstep.Proofs.Flow.Shortening
/-!
Correlating to different depths. Whatever two flows do together in longer contexts they do in shorter
ones too, so that a greater depth has no quadruple and no finding that a smaller one has not, up to
the calls that the smaller one has given up. Depths that allow no call at all have the same result.
-/

set_option autoImplicit false

namespace Lockstep

open Search

variable {g : FlowGraph} {pairs : PairConfig} {side : Side} {k k' : Int}

/-- The same node in a shorter context. -/
structure Position.Shortens (s t : Position) : Prop where
  node : s.node = t.node
  context : s.context.Shortens t.context

section Steps

variable {s s' t t' : Position} {p p' q q' : Position × Position}

theorem Position.shortens_initial (h : k ≤ k') (n : FlowNode) :
    (initial k n).Shortens (initial k' n) := ⟨rfl, CallString.shortens_empty h⟩

theorem Moves.shorten (h : Moves g pairs side t t') (hs : s.Shortens t) :
    ∃ s', Moves g pairs side s s' ∧ s'.Shortens t' := by
  obtain ⟨d, hstep, hd⟩ :=
    (flowStep_single.mpr h).simulated CallString.shortens_simulates hs.node hs.context
  exact ⟨⟨t'.node, d⟩, flowStep_single.mp hstep, rfl, hd⟩

theorem PairStep.shorten (h : PairStep g pairs q q') (h₁ : p.1.Shortens q.1)
    (h₂ : p.2.Shortens q.2) :
    ∃ p', PairStep g pairs p p' ∧ p'.1.Shortens q'.1 ∧ p'.2.Shortens q'.2 := by
  obtain ⟨s, t⟩ := p
  cases h with
  | moveA hu hr =>
    obtain ⟨s', hs, hs'⟩ := hu.shorten h₁
    refine ⟨(s', t), .moveA hs ?_, hs', h₂⟩
    rw [hs'.node, h₂.node]
    exact hr
  | moveB hv hr =>
    obtain ⟨t', ht, ht'⟩ := hv.shorten h₂
    refine ⟨(s, t'), .moveB ht ?_, h₁, ht'⟩
    rw [ht'.node, h₁.node]
    exact hr
  | joint hu hv hr hne =>
    obtain ⟨s', hs, hs'⟩ := hu.shorten h₁
    obtain ⟨t', ht, ht'⟩ := hv.shorten h₂
    refine ⟨(s', t'), .joint hs ht ?_ ?_, hs', ht'⟩
    · rw [hs'.node, ht'.node]
      exact hr
    · rw [hs'.node, h₁.node]
      exact hne

theorem PairWalk.shorten (h : PairWalk g pairs q q') (h₁ : p.1.Shortens q.1)
    (h₂ : p.2.Shortens q.2) :
    ∃ p', PairWalk g pairs p p' ∧ p'.1.Shortens q'.1 ∧ p'.2.Shortens q'.2 := by
  induction h with
  | refl => exact ⟨p, .refl, h₁, h₂⟩
  | tail _ hstep ih =>
    obtain ⟨p', hwalk, h₁', h₂'⟩ := ih
    obtain ⟨p'', hstep', h₁'', h₂''⟩ := hstep.shorten h₁' h₂'
    exact ⟨p'', hwalk.tail hstep', h₁'', h₂''⟩

end Steps

/-- The same flow node, where no more than the latest of the open calls are known. -/
structure PathNode.Shortens (n m : PathNode) : Prop where
  node : n.node = m.node
  sites : n.context.sites <:+ m.context.sites

/-- A quadruple over the same four flow nodes, in contexts that are suffixes of the other's. -/
structure Quadruple.Shortens (q r : Quadruple) : Prop where
  source1 : q.source1.Shortens r.source1
  source2 : q.source2.Shortens r.source2
  node1 : q.node1.Shortens r.node1
  node2 : q.node2.Shortens r.node2

theorem PathNode.At.shortens {n m : PathNode} {s t : Position} (hn : n.At s) (hm : m.At t)
    (h : s.Shortens t) : n.Shortens m where
  node := hn.1.trans (h.node.trans hm.1.symm)
  sites := by
    rw [hn.2.1, hm.2.1]
    exact h.context.sites

namespace Engine

variable {q r : Quadruple}

/-- Where one flow has come to in a longer context, it can come to a sink from the shorter one. -/
theorem escapes_shorten (hg : g.Valid) {depth : Int} {n : PathNode} {s t : Position}
    (hn : n ∈ (pairs.flow g depth side).nodes) (hat : n.At t) (h : s.Shortens t) :
    Escapes g (pairs.single g side) s :=
  (hat.escapes.mpr ((PathGraph.mem_nodes_build hg).mp hn).2).simulated
    CallString.shortens_simulates h.node h.context

theorem exists_shorter (hg : g.Valid) (hk : k ≤ k')
    (hr : r ∈ (of g pairs ⟨.routine, k', 0⟩).outcome.quadruples) :
    ∃ q ∈ (of g pairs ⟨.routine, k, 0⟩).outcome.quadruples, q.Shortens r := by
  obtain ⟨hA, hB⟩ := inward_of hg pairs ⟨.routine, k, 0⟩
  obtain ⟨hA', hB'⟩ := inward_of hg pairs ⟨.routine, k', 0⟩
  have hreached := (mem_quadruples_outcome hA' hB' rfl).mp hr
  obtain ⟨a, b, s', t', hsource, hwalk, hat'⟩ := pairWalk_of_reached hg hreached
  have ha := Position.shortens_initial hk a
  have hb := Position.shortens_initial hk b
  have hshorter : ∃ p, PairWalk g pairs (.initial k a, .initial k b) p ∧ p.1.Shortens s' ∧
      p.2.Shortens t' := hwalk.shorten ha hb
  obtain ⟨⟨s, t⟩, hwalk', hs, ht⟩ := hshorter
  -- the deeper run keeps these path nodes, so both flows can still come to sinks
  obtain ⟨-, -, hmem₁, hmem₂⟩ := mem_domain.mp (mem_domain_of_reached hA' hB' hreached)
  have hescapesA := escapes_shorten hg hmem₁ hat'.node1 hs
  have hescapesB := escapes_shorten hg hmem₂ hat'.node2 ht
  have hderived : ∃ q, Reached (of g pairs ⟨.routine, k, 0⟩).next
      (of g pairs ⟨.routine, k, 0⟩).seeds q ∧ q.At (.initial k a) (.initial k b) s t :=
    reached_of_pairWalk hg rfl hsource hwalk' hescapesA hescapesB
  obtain ⟨q, hq, hat⟩ := hderived
  exact ⟨q, (mem_quadruples_outcome hA hB rfl).mpr hq,
    ⟨hat.source1.shortens hat'.source1 ha, hat.source2.shortens hat'.source2 hb,
      hat.node1.shortens hat'.node1 hs, hat.node2.shortens hat'.node2 ht⟩⟩

end Engine

theorem Quadruple.Shortens.isFinding {c c' : Correlation} {q r : Quadruple} (h : q.Shortens r)
    (hpairs : c.pairs = c'.pairs) : c.isFinding q = c'.isFinding r := by
  simp [Correlation.isFinding, h.node1.node, h.node2.node, hpairs]

/-- Two bounds that allow no call may change places. -/
theorem rebounding_swap (hk : k ≤ 0) (hk' : k' ≤ 0) : Rebounding (Equiv.swap k k') where
  injective := (Equiv.swap k k').injective
  toNat b := by
    rw [Equiv.swap_apply_def]
    split
    · omega
    split <;> omega

/-- Correlating by routines to a greater depth has no quadruple and no finding but over the nodes of
one that a smaller depth has, in contexts that go on further back. All depths that allow no call have
the same result, under any policy and limit. -/
theorem correlate_deeper (hg : g.Built) (pairs : PairConfig) :
    (g.Nameable → pairs.Answers g → ∀ config,
      ∃ c fs, correlate g pairs config = .ok c ∧ c.findings = .ok fs) ∧
    (∀ k k' : Int, k ≤ k' → ∀ c c',
      correlate g pairs { policy := .routine, depth := k, most := 0 } = .ok c →
      correlate g pairs { policy := .routine, depth := k', most := 0 } = .ok c' →
        (∀ r ∈ c'.quadruples, ∃ q ∈ c.quadruples, q.Shortens r) ∧
        ∀ fs fs', c.findings = .ok fs → c'.findings = .ok fs' →
          ∀ f' ∈ fs', ∃ f ∈ fs, f.quadruple.Shortens f'.quadruple) ∧
    ∀ k k' : Int, k ≤ 0 → k' ≤ 0 → ∀ config : CorrelationConfig,
      (correlate g pairs { config with depth := k }).map Correlation.unbound =
        (correlate g pairs { config with depth := k' }).map Correlation.unbound := by
  refine ⟨fun hname hpairs => hpairs.exists_findings hg.valid hname,
    fun k k' hk c c' hc hc' => ?_, fun k k' hk hk' config => ?_⟩
  · obtain rfl := eq_outcome_of_correlate hc
    obtain rfl := eq_outcome_of_correlate hc'
    refine ⟨fun r hr => Engine.exists_shorter hg.valid hk hr, fun fs fs' hfs hfs' f' hf' => ?_⟩
    obtain ⟨hr, hsink, -⟩ := Correlation.of_mem_findings hfs' hf'
    obtain ⟨q, hq, hshort⟩ := Engine.exists_shorter hg.valid hk hr
    have hfound : q ∈ fs.map (·.quadruple) := by
      rw [Correlation.quadruple_of_mapM hfs]
      exact List.mem_filter.mpr ⟨hq, (hshort.isFinding rfl).trans hsink⟩
    obtain ⟨f, hf, rfl⟩ := List.mem_map.mp hfound
    exact ⟨f, hf, hshort⟩
  · have hswap := rebounding_swap hk hk'
    have hrename : correlate g pairs { config with depth := Equiv.swap k k' k } =
        (correlate g pairs { config with depth := k }).map
          (·.rename (PathNode.rebound (Equiv.swap k k'))) :=
      correlate_rename hswap { config with depth := k }
    rw [Equiv.swap_apply_left] at hrename
    rw [hrename]
    cases correlate g pairs { config with depth := k } with
    | error o => rfl
    | ok c => exact congrArg Except.ok (c.unbound_rename hswap).symm

/-- The routine may call itself without end, and a greater depth tells apart more of its calls. -/
theorem correlate_deeper_sample :
    let pairs := PairTable.config { sources := [(['s'], ['t'])], sinks := [(['k'], ['l'])] }
    FlowGraph.sample.Built ∧ FlowGraph.sample.Nameable ∧ pairs.Answers .sample ∧
    (1 : Int) ≤ 2 ∧ (-3 : Int) ≤ 0 ∧
    (∃ c c' fs fs', correlate .sample pairs { policy := .routine, depth := 1, most := 0 } = .ok c ∧
      correlate .sample pairs { policy := .routine, depth := 2, most := 0 } = .ok c' ∧
      c.findings = .ok fs ∧ c'.findings = .ok fs' ∧ fs.length < fs'.length ∧
      (∀ r ∈ c'.quadruples, ∃ q ∈ c.quadruples, q.Shortens r) ∧
      ∀ f' ∈ fs', ∃ f ∈ fs, f.quadruple.Shortens f'.quadruple) ∧
    (correlate .sample pairs { depth := -3 }).map Correlation.unbound =
      (correlate .sample pairs { depth := 0 }).map Correlation.unbound := by
  intro pairs
  have hname : FlowGraph.sample.Nameable := ⟨by decide, by decide⟩
  have hpairs : pairs.Answers .sample := PairTable.answers _ _
  obtain ⟨hexists, hdeeper, hnone⟩ := correlate_deeper FlowGraph.built_sample pairs
  obtain ⟨c, fs, hc, hfs⟩ := hexists hname hpairs { policy := .routine, depth := 1, most := 0 }
  obtain ⟨c', fs', hc', hfs'⟩ := hexists hname hpairs { policy := .routine, depth := 2, most := 0 }
  obtain ⟨hquadruples, hfindings⟩ := hdeeper 1 2 (by decide) c c' hc hc'
  have hmore : fs.length < fs'.length := by
    obtain rfl := eq_outcome_of_correlate hc
    obtain rfl := eq_outcome_of_correlate hc'
    have hlength := congrArg List.length (Correlation.quadruple_of_mapM hfs)
    have hlength' := congrArg List.length (Correlation.quadruple_of_mapM hfs')
    rw [List.length_map] at hlength hlength'
    rw [hlength, hlength']
    decide
  exact ⟨FlowGraph.built_sample, hname, hpairs, by decide, by decide,
    ⟨c, c', fs, fs', hc, hc', hfs, hfs', hmore, hquadruples, hfindings fs fs' hfs hfs'⟩,
    hnone (-3) 0 (by decide) (by decide) {}⟩

end Lockstep
