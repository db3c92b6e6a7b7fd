import Lockstep.Proofs.Correlation.Fixpoint
import Lockstep.Proofs.Correlation.Journey
import Lockstep.Proofs.Search.Distance
/-!
Quadruples and walks of two flows. What a rule derives is one step of both flows away, and a step is
derived if the policy permits it and both flows can still come to a sink. So the quadruples that can
be derived by so many rules are the ends of the journeys of as many steps.
-/

set_option autoImplicit false

namespace Lockstep

open Search

/-- The four path nodes of a quadruple stand for these positions. -/
structure Quadruple.At (q : Quadruple) (a b s t : Position) : Prop where
  source1 : q.source1.At a
  source2 : q.source2.At b
  node1 : q.node1.At s
  node2 : q.node2.At t

namespace Engine

variable {g : FlowGraph} {pairs : PairConfig} {config : CorrelationConfig} {k : StepKind}
  {q r : Quadruple} {a b s s' t t' : Position} {n : Nat}

theorem inward_of (hg : g.Valid) (pairs : PairConfig) (config : CorrelationConfig) :
    (of g pairs config).flowA.Inward ∧ (of g pairs config).flowB.Inward :=
  ⟨PathGraph.inward_build hg _ _ _, PathGraph.inward_build hg _ _ _⟩

theorem source_at (hg : g.Valid) {side : Side} {depth : Int} {n : PathNode}
    (hn : n ∈ (pairs.flow g depth side).sources) :
    n.node ∈ g.nodes ∧ n.At (.initial depth n.node) := by
  obtain ⟨hmem, hsource⟩ := List.mem_filter.mp hn
  have harrived := PathGraph.arrived_build hg hmem
  have hempty := (harrived.source.mp hsource).2
  exact ⟨harrived.arrives.mem_nodes, rfl, hempty, harrived.arrives.fits.bound⟩

theorem exists_source (hg : g.Valid) {side : Side} {depth : Int} {a : FlowNode} (ha : a ∈ g.nodes)
    (hsource : (pairs.single g side).isSource a = true)
    (hsink : Escapes g (pairs.single g side) (.initial depth a)) :
    ∃ n ∈ (pairs.flow g depth side).sources, n.At (.initial depth a) := by
  have harrives : Arrives g (pairs.single g side) depth (.initial depth a) :=
    ⟨a, ha, hsource, .refl⟩
  have hkept : ∃ n ∈ (pairs.flow g depth side).nodes, n.At (.initial depth a) :=
    PathGraph.exists_build hg harrives hsink
  obtain ⟨n, hn, hat⟩ := hkept
  have hflag : n.isSource = true := by
    refine (PathGraph.arrived_build hg hn).source.mpr ⟨?_, hat.2.1⟩
    rw [hat.1]
    exact hsource
  exact ⟨n, List.mem_filter.mpr ⟨hn, hflag⟩, hat⟩

theorem IsSeed.jointSource (hg : g.Valid) (h : (of g pairs config).IsSeed q) :
    JointSource g pairs q.node1.node q.node2.node ∧
      q.At (.initial config.depth q.node1.node) (.initial config.depth q.node2.node)
        (.initial config.depth q.node1.node) (.initial config.depth q.node2.node) := by
  obtain ⟨ha, hatA⟩ := source_at hg h.sourceA
  obtain ⟨hb, hatB⟩ := source_at hg h.sourceB
  exact ⟨⟨ha, hb, h.aligned, h.pair⟩, ⟨h.start1 ▸ hatA, h.start2 ▸ hatB, hatA, hatB⟩⟩

/-- What a rule derives is a step of both flows away. -/
theorem Derives.pairStep (hg : g.Valid) (h : (of g pairs config).Derives k q r)
    (hat : q.At a b s t) : ∃ s' t', PairStep g pairs (s, t) (s', t') ∧ r.At a b s' t' := by
  cases h with
  | @advanceA _ n hn hr =>
    obtain ⟨u, hu, hnu⟩ := PathGraph.step_of_successor hg hn hat.node1
    have hroutine : u.node.routine = t.node.routine := by
      rw [← hnu.routine, ← hat.node2.routine]
      exact hr
    exact ⟨u, t, .moveA (flowStep_single.mp hu) hroutine,
      ⟨hat.source1, hat.source2, hnu, hat.node2⟩⟩
  | @advanceB _ n hn hr =>
    obtain ⟨v, hv, hnv⟩ := PathGraph.step_of_successor hg hn hat.node2
    have hroutine : v.node.routine = s.node.routine := by
      rw [← hnv.routine, ← hat.node1.routine]
      exact hr
    exact ⟨s, v, .moveB (flowStep_single.mp hv) hroutine,
      ⟨hat.source1, hat.source2, hat.node1, hnv⟩⟩
  | @joint _ n₁ n₂ h₁ h₂ htogether hleaves _ =>
    obtain ⟨u, hu, hnu⟩ := PathGraph.step_of_successor hg h₁ hat.node1
    obtain ⟨v, hv, hnv⟩ := PathGraph.step_of_successor hg h₂ hat.node2
    have hroutine : u.node.routine = v.node.routine := by
      rw [← hnu.routine, ← hnv.routine]
      exact htogether
    have hother : u.node.routine ≠ s.node.routine := by
      rw [← hnu.routine, ← hat.node1.routine]
      exact hleaves
    exact ⟨u, v, .joint (flowStep_single.mp hu) (flowStep_single.mp hv) hroutine hother,
      ⟨hat.source1, hat.source2, hnu, hnv⟩⟩

/-- Two flows cross alike where the positions that they leave and enter are crossed alike. -/
theorem sharesFirst_iff {n₁ n₂ : PathNode} (hat : q.At a b s t) (h₁ : n₁.At s') (h₂ : n₂.At t') :
    g.SharesFirst q n₁ n₂ ↔
      ∃ d₁ ∈ (g.between s s').head?, ∃ d₂ ∈ (g.between t t').head?, d₁.Agrees d₂ := by
  rw [FlowGraph.SharesFirst, FlowGraph.crossings_eq_between hat.node1 h₁,
    FlowGraph.crossings_eq_between hat.node2 h₂]

/-- What a rule derives is permitted. -/
theorem Derives.permits (hg : g.Valid) (h : (of g pairs config).Derives k q r)
    (hat : q.At a b s t) (hat' : r.At a b s' t') (haligned : s.node.routine = t.node.routine) :
    config.policy.Permits g (s, t) (s', t') := by
  intro hpolicy hne
  have hleaves : r.node1.routine ≠ q.node1.routine := by
    rw [hat'.node1.routine, hat.node1.routine]
    exact hne
  have hroutine : q.node1.routine = q.node2.routine := by
    rw [hat.node1.routine, hat.node2.routine]
    exact haligned
  cases h with
  | advanceA _ hr => exact absurd (hr.trans hroutine.symm) hleaves
  | advanceB _ _ => exact absurd rfl hleaves
  | @joint _ n₁ n₂ h₁ h₂ htogether _ hallows =>
    have hcross : (of g pairs config).Crosses q n₁ n₂ := ⟨h₁, h₂, htogether, hleaves⟩
    have hshares := (sameCrossing_iff_sharesFirst hg rfl rfl hcross).mp (hallows hpolicy)
    exact (sharesFirst_iff hat hat'.node1 hat'.node2).mp hshares

/-- A step of both flows that is permitted is derived by a rule, if either of them can still come to
a sink. -/
theorem derives_of_pairStep (hg : g.Valid) (h : PairStep g pairs (s, t) (s', t'))
    (hpermits : config.policy.Permits g (s, t) (s', t')) (hq : q ∈ (of g pairs config).domain)
    (hat : q.At a b s t) (hs : Escapes g (pairs.single g .a) s')
    (ht : Escapes g (pairs.single g .b) t') :
    ∃ k r, (of g pairs config).Derives k q r ∧ r.At a b s' t' := by
  obtain ⟨-, -, hq₁, hq₂⟩ := mem_domain.mp hq
  cases h with
  | moveA hu hr =>
    have hstep := flowStep_single.mpr hu
    obtain ⟨n, hn, hns⟩ := PathGraph.successor_of_step hg hq₁ hat.node1 hstep hs
    have hroutine : n.routine = q.node2.routine := by
      rw [hns.routine, hat.node2.routine]
      exact hr
    exact ⟨_, _, .advanceA hn hroutine, ⟨hat.source1, hat.source2, hns, hat.node2⟩⟩
  | moveB hv hr =>
    have hstep := flowStep_single.mpr hv
    obtain ⟨n, hn, hnt⟩ := PathGraph.successor_of_step hg hq₂ hat.node2 hstep ht
    have hroutine : n.routine = q.node1.routine := by
      rw [hnt.routine, hat.node1.routine]
      exact hr
    exact ⟨_, _, .advanceB hn hroutine, ⟨hat.source1, hat.source2, hat.node1, hnt⟩⟩
  | joint hu hv hr hne =>
    have hstepA := flowStep_single.mpr hu
    have hstepB := flowStep_single.mpr hv
    obtain ⟨n₁, h₁, hns⟩ := PathGraph.successor_of_step hg hq₁ hat.node1 hstepA hs
    obtain ⟨n₂, h₂, hnt⟩ := PathGraph.successor_of_step hg hq₂ hat.node2 hstepB ht
    have htogether : n₁.routine = n₂.routine := by
      rw [hns.routine, hnt.routine]
      exact hr
    have hleaves : n₁.routine ≠ q.node1.routine := by
      rw [hns.routine, hat.node1.routine]
      exact hne
    have hcross : (of g pairs config).Crosses q n₁ n₂ := ⟨h₁, h₂, htogether, hleaves⟩
    have hallows : (of g pairs config).config.policy = .callSite →
        (of g pairs config).sameCrossing q n₁ n₂ = true := fun hpolicy =>
      (sameCrossing_iff_sharesFirst hg rfl rfl hcross).mpr
        ((sharesFirst_iff hat hns hnt).mpr (hpermits hpolicy hne))
    exact ⟨_, _, .joint h₁ h₂ htogether hleaves hallows, ⟨hat.source1, hat.source2, hns, hnt⟩⟩

theorem exists_seed (hg : g.Valid) {a b : FlowNode} (h : JointSource g pairs a b)
    (ha : Escapes g (pairs.single g .a) (.initial config.depth a))
    (hb : Escapes g (pairs.single g .b) (.initial config.depth b)) :
    ∃ q ∈ (of g pairs config).seeds, q.At (.initial config.depth a) (.initial config.depth b)
      (.initial config.depth a) (.initial config.depth b) := by
  have hpair := hg.mem_routinePairs.mpr ⟨h.memA, h.memB, h.aligned⟩
  have hsourceA : (pairs.single g .a).isSource a = true :=
    (Projection.isSource_config hg h.memA).mpr ⟨(a, b), hpair, h.pair, rfl⟩
  have hsourceB : (pairs.single g .b).isSource b = true :=
    (Projection.isSource_config hg h.memB).mpr ⟨(a, b), hpair, h.pair, rfl⟩
  obtain ⟨n, hn, hna⟩ := exists_source hg h.memA hsourceA ha
  obtain ⟨m, hm, hmb⟩ := exists_source hg h.memB hsourceB hb
  have hpair' : pairs.isSourcePair n.node m.node = true := by
    rw [hna.1, hmb.1]
    exact h.pair
  have hrout : n.routine = m.routine := by
    rw [hna.routine, hmb.routine]
    exact h.aligned
  exact ⟨⟨n, m, n, m⟩, mem_seeds.mpr ⟨rfl, rfl, hn, hm, hrout, hpair'⟩, ⟨hna, hmb, hna, hmb⟩⟩

/-- Where the flows of a quadruple are, both can still come to sinks. -/
theorem nodes_of_reached (hg : g.Valid)
    (h : Reached (of g pairs config).next (of g pairs config).seeds q) :
    (q.source1.node ∈ g.nodes ∧ q.source2.node ∈ g.nodes) ∧
    q.node1.node ∈ g.nodes ∧ q.node2.node ∈ g.nodes := by
  obtain ⟨hA, hB⟩ := inward_of hg pairs config
  obtain ⟨h₁, h₂, h₃, h₄⟩ := mem_domain.mp (mem_domain_of_reached hA hB h)
  have mem {side : Side} {n : PathNode} (hn : n ∈ (pairs.flow g config.depth side).nodes) :
      n.node ∈ g.nodes := (PathGraph.arrived_build hg hn).arrives.mem_nodes
  exact ⟨⟨mem h₁, mem h₂⟩, mem h₃, mem h₄⟩

theorem escapes_of_mem_domain (hg : g.Valid) (hq : q ∈ (of g pairs config).domain)
    (hat : q.At a b s t) :
    Escapes g (pairs.single g .a) s ∧ Escapes g (pairs.single g .b) t := by
  obtain ⟨-, -, h₁, h₂⟩ := mem_domain.mp hq
  exact ⟨hat.node1.escapes.mpr ((PathGraph.mem_nodes_build hg).mp h₁).2,
    hat.node2.escapes.mpr ((PathGraph.mem_nodes_build hg).mp h₂).2⟩

theorem journey_of_reachedIn (hg : g.Valid)
    (h : ReachedIn (of g pairs config).next (of g pairs config).seeds n q) :
    ∃ a b s t, Journey g pairs config n a b s t ∧
      q.At (.initial config.depth a) (.initial config.depth b) s t := by
  obtain ⟨hA, hB⟩ := inward_of hg pairs config
  induction h with
  | @start q hq =>
    have hseed := mem_seeds.mp hq
    obtain ⟨hsource, hat⟩ := hseed.jointSource hg
    obtain ⟨hs, ht⟩ := escapes_of_mem_domain hg hseed.mem_domain hat
    exact ⟨_, _, _, _, ⟨hsource, .start, hs, ht⟩, hat⟩
  | @next n q r hreached hr ih =>
    obtain ⟨a, b, s, t, hjourney, hat⟩ := ih
    obtain ⟨k, hk⟩ := mem_next.mp hr
    obtain ⟨s', t', hstep, hat'⟩ := hk.pairStep hg hat
    have hpermits := hk.permits hg hat hat' hjourney.aligned
    have hmem := hk.mem_domain hA hB (mem_domain_of_reached hA hB hreached.reached)
    obtain ⟨hs, ht⟩ := escapes_of_mem_domain hg hmem hat'
    exact ⟨a, b, s', t', ⟨hjourney.source, hjourney.run.step hstep hpermits, hs, ht⟩, hat'⟩

theorem reachedIn_of_pairRun (hg : g.Valid) {a b : FlowNode} (h : JointSource g pairs a b)
    {p : Position × Position} (hrun : PairRun g pairs config.policy
      (.initial config.depth a, .initial config.depth b) n p)
    (hs : Escapes g (pairs.single g .a) p.1) (ht : Escapes g (pairs.single g .b) p.2) :
    ∃ q, ReachedIn (of g pairs config).next (of g pairs config).seeds n q ∧
      q.At (.initial config.depth a) (.initial config.depth b) p.1 p.2 := by
  obtain ⟨hA, hB⟩ := inward_of hg pairs config
  -- the sinks lie ahead of the run, so every shorter run can come to them too
  induction hrun with
  | start =>
    obtain ⟨q, hq, hat⟩ := exists_seed hg h hs ht
    exact ⟨q, .start hq, hat⟩
  | @step n p p' _ hstep hpermits ih =>
    obtain ⟨q, hq, hat⟩ := ih (hs.walk (hstep.walk .a)) (ht.walk (hstep.walk .b))
    have hmem := mem_domain_of_reached hA hB hq.reached
    obtain ⟨k, r, hk, hat'⟩ := derives_of_pairStep hg hstep hpermits hmem hat hs ht
    exact ⟨r, hq.next (mem_next.mpr ⟨k, hk⟩), hat'⟩

theorem pairWalk_of_reached (hg : g.Valid)
    (h : Reached (of g pairs config).next (of g pairs config).seeds q) :
    ∃ a b s t, JointSource g pairs a b ∧
      PairWalk g pairs (.initial config.depth a, .initial config.depth b) (s, t) ∧
      q.At (.initial config.depth a) (.initial config.depth b) s t := by
  obtain ⟨n, hn⟩ := h.exists_in
  obtain ⟨a, b, s, t, hjourney, hat⟩ := journey_of_reachedIn hg hn
  exact ⟨a, b, s, t, hjourney.source, hjourney.run.walk, hat⟩

/-- A walk of both flows from a joint source is derived, if both can still come to a sink. -/
theorem reached_of_pairWalk (hg : g.Valid) (hpolicy : config.policy = .routine) {a b : FlowNode}
    (h : JointSource g pairs a b) {p : Position × Position}
    (hw : PairWalk g pairs (.initial config.depth a, .initial config.depth b) p)
    (hs : Escapes g (pairs.single g .a) p.1) (ht : Escapes g (pairs.single g .b) p.2) :
    ∃ q, Reached (of g pairs config).next (of g pairs config).seeds q ∧
      q.At (.initial config.depth a) (.initial config.depth b) p.1 p.2 := by
  obtain ⟨n, hrun⟩ := hw.exists_run
  rw [← hpolicy] at hrun
  obtain ⟨q, hq, hat⟩ := reachedIn_of_pairRun hg h hrun hs ht
  exact ⟨q, hq.reached, hat⟩

end Engine
end Lockstep
