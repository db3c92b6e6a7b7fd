import Lockstep.Pair.Table
import Lockstep.Proofs.Correlation.Rules
import Lockstep.Proofs.Flow.Kept
/-!
Crossings by call site. Several edges may lead from one path node to another, since contexts are cut
short and an empty one can be left by any return. A path graph knows only the first of these edges,
and two flows cross together exactly if the first edges of their two steps agree. So a call that
both flows go through is missed where an edge through another one comes before it.
-/

set_option autoImplicit false

namespace Lockstep

/-- Both are the same kind of step and, unless that forgets the calls, through the same call. -/
def FlowEdge.Agrees (d e : FlowEdge) : Prop :=
  d.kind = e.kind ∧ (d.kind ≠ .jump → sameSite d.site e.site = true)

instance (d e : FlowEdge) : Decidable (d.Agrees e) :=
  inferInstanceAs (Decidable (d.kind = e.kind ∧ (d.kind ≠ .jump → sameSite d.site e.site = true)))

theorem FlowEdge.Agrees.trans {d e f : FlowEdge} (h : d.Agrees e) (h' : e.Agrees f) :
    d.Agrees f := by
  refine ⟨h.1.trans h'.1, fun hjump => ?_⟩
  have hde := h.2 hjump
  have hef := h'.2 (h.1 ▸ hjump)
  simp only [sameSite, Bool.and_eq_true, beq_iff_eq] at hde hef ⊢
  exact ⟨hde.1.trans hef.1, hde.2⟩

/-- The edge takes one path node to another: its node to the other's and its context to the
other's. -/
def FlowEdge.connects (e : FlowEdge) (n m : PathNode) : Bool :=
  e.source == n.node.id && e.target == m.node.id &&
  (n.context.along e).any (·.sites == m.context.sites)

def FlowGraph.crossings (g : FlowGraph) (n m : PathNode) : List FlowEdge :=
  g.edges.filter (·.connects n m)

namespace FlowGraph

/-- Some edge of the one step agrees with some edge of the other. -/
def Shares (g : FlowGraph) (q : Quadruple) (n₁ n₂ : PathNode) : Prop :=
  ∃ d₁ ∈ g.crossings q.node1 n₁, ∃ d₂ ∈ g.crossings q.node2 n₂, d₁.Agrees d₂

/-- The first edge of the one step agrees with the first edge of the other. -/
def SharesFirst (g : FlowGraph) (q : Quadruple) (n₁ n₂ : PathNode) : Prop :=
  ∃ d₁ ∈ (g.crossings q.node1 n₁).head?, ∃ d₂ ∈ (g.crossings q.node2 n₂).head?, d₁.Agrees d₂

instance (g : FlowGraph) (q : Quadruple) (n₁ n₂ : PathNode) : Decidable (g.Shares q n₁ n₂) :=
  inferInstanceAs
    (Decidable (∃ d₁ ∈ g.crossings q.node1 n₁, ∃ d₂ ∈ g.crossings q.node2 n₂, d₁.Agrees d₂))

theorem SharesFirst.shares {g : FlowGraph} {q : Quadruple} {n₁ n₂ : PathNode}
    (h : g.SharesFirst q n₁ n₂) : g.Shares q n₁ n₂ := by
  obtain ⟨d₁, h₁, d₂, h₂, hagree⟩ := h
  exact ⟨d₁, List.mem_of_mem_head? h₁, d₂, List.mem_of_mem_head? h₂, hagree⟩

/-- All edges that take one path node to another agree. -/
def Uniform (g : FlowGraph) (n m : PathNode) : Prop :=
  ∀ d ∈ g.crossings n m, ∀ d' ∈ g.crossings n m, d.Agrees d'

instance (g : FlowGraph) (n m : PathNode) : Decidable (g.Uniform n m) :=
  inferInstanceAs (Decidable (∀ d ∈ g.crossings n m, ∀ d' ∈ g.crossings n m, d.Agrees d'))

theorem Shares.first {g : FlowGraph} {q : Quadruple} {n₁ n₂ : PathNode} (h : g.Shares q n₁ n₂)
    (hA : g.Uniform q.node1 n₁) (hB : g.Uniform q.node2 n₂) : g.SharesFirst q n₁ n₂ := by
  obtain ⟨d₁, h₁, d₂, h₂, hagree⟩ := h
  obtain ⟨f₁, hf₁⟩ := Option.isSome_iff_exists.mp (List.isSome_head?.mpr (List.ne_nil_of_mem h₁))
  obtain ⟨f₂, hf₂⟩ := Option.isSome_iff_exists.mp (List.isSome_head?.mpr (List.ne_nil_of_mem h₂))
  refine ⟨f₁, hf₁, f₂, hf₂, ?_⟩
  have hA' := hA f₁ (List.mem_of_mem_head? hf₁) d₁ h₁
  have hB' := hB d₂ h₂ f₂ (List.mem_of_mem_head? hf₂)
  exact (hA'.trans hagree).trans hB'

end FlowGraph

variable {g : FlowGraph} {cfg : FlowConfig} {tag : FlowTag} {depth : Int} {n m : PathNode}
  {d : FlowEdge}

theorem FlowGraph.mem_crossings : d ∈ g.crossings n m ↔ d ∈ g.edges ∧ d.source = n.node.id ∧
    d.target = m.node.id ∧ ∃ c, n.context.along d = some c ∧ c.sites = m.context.sites := by
  simp [crossings, FlowEdge.connects, Option.any_eq_true, and_assoc]

theorem FlowGraph.Valid.callSite_ne_null (hg : g.Valid) (hn : n.node ∈ g.nodes)
    (hm : m.node ∈ g.nodes) (hd : d ∈ g.crossings n m) (hr : n.routine ≠ m.routine)
    (hjump : d.kind ≠ .jump) : d.callSite ≠ .null := by
  obtain ⟨hmem, hs, ht, -⟩ := mem_crossings.mp hd
  have hkind : d.kind ≠ .internal := fun hk =>
    hr (hg.internal d hmem hk n.node hn m.node hm hs.symm ht.symm)
  have hneeds : d.kind.needsSite = true := by
    cases hk : d.kind <;> simp_all [EdgeKind.needsSite]
  have hholds := hg.site d hmem hneeds
  intro hnull
  rw [hnull] at hholds
  exact absurd hholds (by decide)

/-- Which edge a path graph knows of a step. -/
theorem PathGraph.edge?_eq_head? (hg : g.Valid)
    (hm : m ∈ (build tag g cfg depth).successors n) :
    (build tag g cfg depth).edge? n m = (g.crossings n m).head? := by
  obtain ⟨hn, hm', e, hfirst⟩ := (mem_successors_build hg).mp hm
  have htakes : takes cfg n m e = true := List.find?_some hfirst
  have hopen : cfg.isBarrier n.node = false ∧ cfg.isBarrier m.node = false := by
    simp only [takes, Bool.and_eq_true, Bool.not_eq_true'] at htakes
    exact ⟨htakes.1.1.2, htakes.1.2⟩
  have hhead : firstEdge? g cfg n m = (g.crossings n m).head? := by
    rw [firstEdge?, FlowGraph.outEdges, List.find?_filter, FlowGraph.crossings, List.head?_filter]
    congr 1
    funext a
    rw [Bool.eq_iff_iff]
    simp [takes, FlowEdge.connects, hopen, and_assoc]
  rw [(edge?_build hg).mpr ⟨hn, hm', hfirst⟩, ← hhead, hfirst]

theorem PathGraph.mem_crossings_of_edge? (hg : g.Valid)
    (h : (build tag g cfg depth).edge? n m = some d) : d ∈ g.crossings n m := by
  obtain ⟨-, -, hfirst⟩ := (edge?_build hg).mp h
  obtain ⟨hmem, hsource⟩ := FlowGraph.mem_outEdges.mp (List.mem_of_find?_eq_some hfirst)
  have htakes : takes cfg n m d = true := List.find?_some hfirst
  simp only [takes, Bool.and_eq_true, beq_iff_eq, Option.any_eq_true] at htakes
  exact FlowGraph.mem_crossings.mpr ⟨hmem, hsource, htakes.1.1.1, htakes.2⟩

namespace Engine

/-- Both flows can take a step into one other routine. -/
structure Crosses (e : Engine) (q : Quadruple) (n₁ n₂ : PathNode) : Prop where
  stepA : n₁ ∈ e.flowA.successors q.node1
  stepB : n₂ ∈ e.flowB.successors q.node2
  together : n₁.routine = n₂.routine
  leaves : n₁.routine ≠ q.node1.routine

theorem sameCrossing_iff {e : Engine} {q : Quadruple} {n₁ n₂ : PathNode} :
    e.sameCrossing q n₁ n₂ = true ↔ ∃ d₁ ∈ e.flowA.edge? q.node1 n₁, ∃ d₂ ∈ e.flowB.edge? q.node2 n₂,
      d₁.kind = d₂.kind ∧
      (d₁.kind ≠ .jump → d₁.callSite ≠ .null ∧ sameSite d₁.site d₂.site = true) := by
  unfold sameCrossing
  cases e.flowA.edge? q.node1 n₁ with
  | none => simp
  | some d₁ =>
    cases e.flowB.edge? q.node2 n₂ with
    | none => simp
    | some d₂ =>
      by_cases hjump : d₁.kind = .jump <;> simp [hjump]

variable {e : Engine} {q r : Quadruple} {n₁ n₂ : PathNode} {tagA tagB : FlowTag}
  {cfgA cfgB : FlowConfig} {depthA depthB : Int}

theorem sameCrossing_iff_sharesFirst (hg : g.Valid) (hA : e.flowA = .build tagA g cfgA depthA)
    (hB : e.flowB = .build tagB g cfgB depthB) (h : e.Crosses q n₁ n₂) :
    e.sameCrossing q n₁ n₂ = true ↔ g.SharesFirst q n₁ n₂ := by
  have hstepA := hA ▸ h.stepA
  obtain ⟨hq, hn, -⟩ := (PathGraph.mem_successors_build hg).mp hstepA
  have hqmem := (PathGraph.arrived_build hg hq).arrives.mem_nodes
  have hnmem := (PathGraph.arrived_build hg hn).arrives.mem_nodes
  rw [sameCrossing_iff, hA, hB, PathGraph.edge?_eq_head? hg hstepA,
    PathGraph.edge?_eq_head? hg (hB ▸ h.stepB), FlowGraph.SharesFirst]
  refine exists_congr fun d₁ => and_congr_right fun hd₁ => ?_
  have hsite : d₁.kind ≠ .jump → d₁.callSite ≠ .null :=
    hg.callSite_ne_null hqmem hnmem (List.mem_of_mem_head? hd₁) h.leaves.symm
  refine exists_congr fun d₂ => and_congr_right fun _ => and_congr_right fun _ => ?_
  exact forall_congr' fun hjump => and_iff_right (hsite hjump)

theorem mem_joint_callSite (hg : g.Valid) (hA : e.flowA = .build tagA g cfgA depthA)
    (hB : e.flowB = .build tagB g cfgB depthB) (hpolicy : e.config.policy = .callSite) :
    r ∈ e.joint q ↔ ∃ n₁ n₂, e.Crosses q n₁ n₂ ∧ g.SharesFirst q n₁ n₂ ∧
      r = { q with node1 := n₁, node2 := n₂ } := by
  rw [mem_joint]
  constructor
  · intro h
    cases h with
    | @joint _ n₁ n₂ h₁ h₂ htogether hleaves hallows =>
      have hcross : e.Crosses q n₁ n₂ := ⟨h₁, h₂, htogether, hleaves⟩
      have hfirst := (sameCrossing_iff_sharesFirst hg hA hB hcross).mp (hallows hpolicy)
      exact ⟨n₁, n₂, hcross, hfirst, rfl⟩
  · intro h
    obtain ⟨n₁, n₂, hcross, hfirst, rfl⟩ := h
    have hsame := (sameCrossing_iff_sharesFirst hg hA hB hcross).mpr hfirst
    exact .joint hcross.stepA hcross.stepB hcross.together hcross.leaves fun _ => hsame

/-- Under the policy of call sites two flows cross together exactly if the first edges of their
steps agree. So they never cross without edges that agree, and with such edges they do unless the
edges of one step differ among themselves. -/
theorem joint_callSite (hg : g.Built) (tagA tagB : FlowTag) (cfgA cfgB : FlowConfig)
    (depthA depthB : Int) (pairs : PairConfig) (config : CorrelationConfig)
    (hpolicy : config.policy = .callSite) (q : Quadruple) :
    let e : Engine := ⟨.build tagA g cfgA depthA, .build tagB g cfgB depthB, pairs, config⟩
    (∀ r ∈ e.joint q, ∃ n₁ n₂, e.Crosses q n₁ n₂ ∧ r = { q with node1 := n₁, node2 := n₂ }) ∧
    ∀ n₁ n₂, e.Crosses q n₁ n₂ →
      let r : Quadruple := { q with node1 := n₁, node2 := n₂ }
      (r ∈ e.joint q ↔ g.SharesFirst q n₁ n₂) ∧
      (r ∈ e.joint q → g.Shares q n₁ n₂) ∧
      (g.Uniform q.node1 n₁ → g.Uniform q.node2 n₂ → (r ∈ e.joint q ↔ g.Shares q n₁ n₂)) := by
  intro e
  have hjoint {r : Quadruple} : r ∈ e.joint q ↔ ∃ n₁ n₂, e.Crosses q n₁ n₂ ∧
      g.SharesFirst q n₁ n₂ ∧ r = { q with node1 := n₁, node2 := n₂ } :=
    mem_joint_callSite hg.valid rfl rfl hpolicy
  refine ⟨?_, ?_⟩
  · intro r hr
    obtain ⟨n₁, n₂, hcross, -, heq⟩ := hjoint.mp hr
    exact ⟨n₁, n₂, hcross, heq⟩
  · intro n₁ n₂ hcross r
    have hfirst : r ∈ e.joint q ↔ g.SharesFirst q n₁ n₂ := by
      constructor
      · intro hr
        obtain ⟨m₁, m₂, -, hm, heq⟩ := hjoint.mp hr
        obtain ⟨-, -, rfl, rfl⟩ := Quadruple.mk.inj heq
        exact hm
      · exact fun h => hjoint.mpr ⟨n₁, n₂, hcross, h, rfl⟩
    refine ⟨hfirst, fun hr => (hfirst.mp hr).shares, fun hA hB => ?_⟩
    rw [hfirst]
    exact ⟨FlowGraph.SharesFirst.shares, fun h => h.first hA hB⟩

/-- Two values are handed to one call of a routine, so that both flows enter it together. -/
theorem joint_callSite_sample :
    let e : Engine := ⟨.build ⟨['A'], 0⟩ .sample (.ofIds [['s']] [['k']] []) 1,
      .build ⟨['B'], 0⟩ .sample (.ofIds [['t']] [['l']] []) 1,
      PairTable.config { sources := [(['s'], ['t'])], sinks := [(['k'], ['l'])] },
      { policy := .callSite }⟩
    FlowGraph.sample.Built ∧ e.config.policy = .callSite ∧ ∃ q ∈ e.seeds, ∃ n₁ n₂,
      e.Crosses q n₁ n₂ ∧ FlowGraph.sample.Uniform q.node1 n₁ ∧
      FlowGraph.sample.Uniform q.node2 n₂ ∧
      ({ q with node1 := n₁, node2 := n₂ } ∈ e.joint q ↔ FlowGraph.sample.Shares q n₁ n₂) := by
  intro e
  have hcross : ∃ q ∈ e.seeds, ∃ n₁ ∈ e.flowA.successors q.node1,
      ∃ n₂ ∈ e.flowB.successors q.node2, n₁.routine = n₂.routine ∧
      n₁.routine ≠ q.node1.routine ∧ FlowGraph.sample.Uniform q.node1 n₁ ∧
      FlowGraph.sample.Uniform q.node2 n₂ := by decide
  obtain ⟨q, hq, n₁, h₁, n₂, h₂, htogether, hleaves, hA, hB⟩ := hcross
  have h := joint_callSite FlowGraph.built_sample ⟨['A'], 0⟩ ⟨['B'], 0⟩ (.ofIds [['s']] [['k']] [])
    (.ofIds [['t']] [['l']] []) 1 1 e.pairs e.config rfl q
  have hn := h.2 n₁ n₂ ⟨h₁, h₂, htogether, hleaves⟩
  exact ⟨FlowGraph.built_sample, rfl, q, hq, n₁, n₂, ⟨h₁, h₂, htogether, hleaves⟩, hA, hB,
    hn.2.2 hA hB⟩

end Engine

/-- One value comes back through either of two calls, another one through the second of them. -/
def FlowGraph.doubled : FlowGraph :=
  let callee : Routine := { name := .text ['f'] }
  let caller : Routine := { name := .text "main".toList }
  { routines := [callee, caller]
    nodes := [
      { id := ['a'], routine := callee }, { id := ['b'], routine := callee },
      { id := ['x'], routine := caller }, { id := ['y'], routine := caller }]
    edges := [
      { source := ['a'], target := ['x'], kind := .return, callSite := .text ['c', '1'] },
      { source := ['a'], target := ['x'], kind := .return, callSite := .text ['c', '2'] },
      { source := ['b'], target := ['y'], kind := .return, callSite := .text ['c', '2'] }] }

/-- Both come back through the second call, but that is no joint step. -/
theorem Engine.joint_misses_shared :
    let e : Engine := ⟨.build ⟨['A'], 0⟩ .doubled (.ofIds [['a']] [['x']] []) 3,
      .build ⟨['B'], 0⟩ .doubled (.ofIds [['b']] [['y']] []) 3,
      PairTable.config { sources := [(['a'], ['b'])], sinks := [(['x'], ['y'])] },
      { policy := .callSite }⟩
    FlowGraph.doubled.Built ∧ ∃ q ∈ e.seeds, ∃ n₁ n₂, e.Crosses q n₁ n₂ ∧
      FlowGraph.doubled.Shares q n₁ n₂ ∧
      { q with node1 := n₁, node2 := n₂ } ∉ e.joint q := by
  intro e
  have hadd : FlowGraph.assemble FlowGraph.doubled.nodes FlowGraph.doubled.edges =
      .ok FlowGraph.doubled := rfl
  have hmissed : ∃ q ∈ e.seeds, ∃ n₁ ∈ e.flowA.successors q.node1,
      ∃ n₂ ∈ e.flowB.successors q.node2, n₁.routine = n₂.routine ∧
      n₁.routine ≠ q.node1.routine ∧ FlowGraph.doubled.Shares q n₁ n₂ ∧
      { q with node1 := n₁, node2 := n₂ } ∉ e.joint q := by decide
  obtain ⟨q, hq, n₁, h₁, n₂, h₂, htogether, hleaves, hshares, hno⟩ := hmissed
  exact ⟨FlowGraph.built_of_assemble hadd, q, hq, n₁, n₂, ⟨h₁, h₂, htogether, hleaves⟩, hshares, hno⟩

end Lockstep
