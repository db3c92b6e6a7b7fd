import Mathlib.Data.Set.Function
import Lockstep.Proofs.Flow.CallStack
import Lockstep.Proofs.Flow.Exactness
/-!
Realizable flows. A flow is realizable if the stack of all open calls allows it. A path graph has a
walk over the same edges for each of them, and if no more calls are ever open than its bound allows
it holds nothing but the places that realizable flows go through.
-/

set_option autoImplicit false

namespace Lockstep

/-- A node and the calls that are open there. -/
structure Configuration where
  node : FlowNode
  stack : CallStack
  deriving DecidableEq

def Position.configuration (p : Position) : Configuration := ⟨p.node, p.context.sites⟩

def PathNode.configuration (n : PathNode) : Configuration := n.position.configuration

/-- An edge leads on as the stack allows, never into a barrier and never out of one. -/
structure StackStep (g : FlowGraph) (cfg : FlowConfig) (s : Configuration) (e : FlowEdge)
    (t : Configuration) : Prop where
  edge : e ∈ g.edges
  source : e.source = s.node.id
  target : e.target = t.node.id
  node : t.node ∈ g.nodes
  leaves : cfg.isBarrier s.node = false
  enters : cfg.isBarrier t.node = false
  stack : CallStack.along s.stack e = some t.stack

instance (g : FlowGraph) (cfg : FlowConfig) (s t : Configuration) (e : FlowEdge) :
    Decidable (StackStep g cfg s e t) :=
  decidable_of_iff (e ∈ g.edges ∧ e.source = s.node.id ∧ e.target = t.node.id ∧ t.node ∈ g.nodes ∧
      cfg.isBarrier s.node = false ∧ cfg.isBarrier t.node = false ∧
      CallStack.along s.stack e = some t.stack)
    ⟨fun ⟨h₁, h₂, h₃, h₄, h₅, h₆, h₇⟩ => ⟨h₁, h₂, h₃, h₄, h₅, h₆, h₇⟩,
      fun h => ⟨h.edge, h.source, h.target, h.node, h.leaves, h.enters, h.stack⟩⟩

abbrev StackWalk (g : FlowGraph) (cfg : FlowConfig) : Configuration → Configuration → Prop :=
  Relation.ReflTransGen fun s t => ∃ e, StackStep g cfg s e t

/-- Steps over edges, with each edge and what it leads to. -/
inductive Trail {α : Type} (R : α → FlowEdge → α → Prop) : α → List (FlowEdge × α) → α → Prop
  | nil {a : α} : Trail R a [] a
  | cons {a b c : α} {e : FlowEdge} {steps : List (FlowEdge × α)} : R a e b → Trail R b steps c →
      Trail R a ((e, b) :: steps) c

/-- The same node, where no more than the latest of the open calls are known. -/
def PathNode.Abridges (n : PathNode) (s : Configuration) : Prop :=
  n.node = s.node ∧ n.context.sites <:+ s.stack

/-- A step of a path graph over one of the edges, first or not, that take the one path node to the
other. -/
structure PathGraph.Follows (g : FlowGraph) (cfg : FlowConfig) (p : PathGraph) (n : PathNode)
    (e : FlowEdge) (m : PathNode) : Prop where
  successor : m ∈ p.successors n
  out : e ∈ g.outEdges n.node.id
  takes : takes cfg n m e = true

/-- A realizable flow from a source to a sink goes through here. -/
def OnRealizable (g : FlowGraph) (cfg : FlowConfig) (t : Configuration) : Prop :=
  (∃ a ∈ g.nodes, cfg.isSource a = true ∧ StackWalk g cfg ⟨a, []⟩ t) ∧
  ∃ u, StackWalk g cfg t u ∧ cfg.isSink u.node = true

variable {tag : FlowTag} {g : FlowGraph} {cfg : FlowConfig} {depth : Int} {e : FlowEdge}
  {s t u : Configuration} {p q : Position} {n : PathNode}

theorem Trail.walk {steps : List (FlowEdge × Configuration)}
    (h : Trail (StackStep g cfg) s steps t) : StackWalk g cfg s t := by
  induction h with
  | nil => exact .refl
  | cons hstep _ ih => exact .head ⟨_, hstep⟩ ih

section Bounded

/-- What the stack allows a call string allows that holds the latest calls of it. -/
theorem StackStep.leads (h : StackStep g cfg s e t) (hnode : p.node = s.node)
    (hsites : p.context.sites <:+ s.stack) :
    ∃ d : CallString, Leads g cfg p e ⟨t.node, d⟩ ∧ d.sites <:+ t.stack := by
  obtain ⟨d, hd, hsuffix⟩ := CallString.along_of_suffix hsites h.stack
  exact ⟨d, ⟨h.edge, hnode ▸ h.source, h.target, h.node, hnode ▸ h.leaves, h.enters, hd⟩, hsuffix⟩

theorem StackWalk.escapes (h : StackWalk g cfg s u) (hsink : cfg.isSink u.node = true)
    (hnode : p.node = s.node) (hsites : p.context.sites <:+ s.stack) : Escapes g cfg p := by
  induction h using Relation.ReflTransGen.head_induction_on generalizing p with
  | refl => exact ⟨p, .refl, hnode ▸ hsink⟩
  | head hstep _ ih =>
    obtain ⟨e, he⟩ := hstep
    obtain ⟨d, hd, hsuffix⟩ := he.leads hnode hsites
    exact (ih (p := ⟨_, d⟩) rfl hsuffix).walk (.single ⟨e, hd⟩)

/-- A step of a realizable flow that can come to a sink is a step of the path graph. -/
theorem PathGraph.exists_follows (hg : g.Valid) (hn : n ∈ (build tag g cfg depth).nodes)
    (hab : n.Abridges s) (hst : StackStep g cfg s e t) (hw : StackWalk g cfg t u)
    (hsink : cfg.isSink u.node = true) :
    ∃ m ∈ (build tag g cfg depth).nodes,
      (build tag g cfg depth).Follows g cfg n e m ∧ m.Abridges t := by
  obtain ⟨d, hlead, hsuffix⟩ := hst.leads (p := n.position) hab.1 hab.2
  have harrives := (arrived_build hg hn).arrives.step ⟨e, hlead⟩
  have hescapes : Escapes g cfg ⟨t.node, d⟩ := hw.escapes hsink rfl hsuffix
  have hkept : ∃ m ∈ (build tag g cfg depth).nodes, m.At ⟨t.node, d⟩ :=
    exists_build hg harrives hescapes
  obtain ⟨m, hm, hat⟩ := hkept
  have hout : e ∈ g.outEdges n.node.id := FlowGraph.mem_outEdges.mpr ⟨hlead.edge, hlead.source⟩
  have hplace : (Position.mk t.node d).place = m.place := by
    simp [Position.place, PathNode.position, hat.1, hat.2.1]
  refine ⟨m, hm, ⟨(successor_iff_step hg hn hm).mpr ⟨_, ⟨e, hlead⟩, hat⟩, hout, ?_⟩, hat.1, ?_⟩
  · exact (takes_iff hg hout (arrived_build hg hm).arrives.mem_nodes).mpr ⟨_, hlead, hplace⟩
  · rw [hat.2.1]
    exact hsuffix

theorem PathGraph.exists_trail (hg : g.Valid) (hn : n ∈ (build tag g cfg depth).nodes)
    (hab : n.Abridges s) {steps : List (FlowEdge × Configuration)}
    (htrail : Trail (StackStep g cfg) s steps t) (hsink : cfg.isSink t.node = true) :
    ∃ steps' m, Trail ((build tag g cfg depth).Follows g cfg) n steps' m ∧
      m ∈ (build tag g cfg depth).sinks ∧ m.Abridges t ∧
      List.Forall₂ (fun x y => y.1 = x.1 ∧ y.2.Abridges x.2) steps steps' := by
  induction htrail generalizing n with
  | nil =>
    have hflag : n.isSink = true := by
      rw [(arrived_build hg hn).sink, hab.1]
      exact hsink
    exact ⟨[], n, .nil, List.mem_filter.mpr ⟨hn, hflag⟩, hab, .nil⟩
  | cons hstep hrest ih =>
    obtain ⟨m, hm, hfollows, hab'⟩ := exists_follows hg hn hab hstep hrest.walk hsink
    obtain ⟨steps', k, htrail', hk, habk, hall⟩ := ih hm hab' hsink
    exact ⟨_, k, .cons hfollows htrail', hk, habk, .cons ⟨rfl, hab'⟩ hall⟩

end Bounded

section Roomy

/-- Where the bound leaves room for what the stack holds, call strings go where stacks go. -/
theorem exists_leads_iff (hroom : ∀ t, StackStep g cfg p.configuration e t →
      t.stack.length ≤ p.context.bound.toNat) :
    (∃ q, Leads g cfg p e q ∧ q.configuration = t) ↔ StackStep g cfg p.configuration e t := by
  have hsites (k : FlowNode) (hedge : e ∈ g.edges) (hsource : e.source = p.node.id)
      (htarget : e.target = k.id) (hk : k ∈ g.nodes) (hleaves : cfg.isBarrier p.node = false)
      (henters : cfg.isBarrier k = false) :
      (p.context.along e).map (·.sites) = CallStack.along p.context.sites e := by
    refine CallString.along_sites fun hcall => ?_
    have hpush : CallStack.along p.context.sites e = some (p.context.sites ++ [e.site]) := by
      simp [CallStack.along, hcall]
    have hlen : (p.context.sites ++ [e.site]).length ≤ p.context.bound.toNat :=
      hroom ⟨k, _⟩ ⟨hedge, hsource, htarget, hk, hleaves, henters, hpush⟩
    rw [List.length_append] at hlen
    exact Nat.lt_of_succ_le hlen
  constructor
  · intro h
    obtain ⟨q, hq, rfl⟩ := h
    have hstack := hsites q.node hq.edge hq.source hq.target hq.node hq.leaves hq.enters
    rw [hq.context] at hstack
    exact ⟨hq.edge, hq.source, hq.target, hq.node, hq.leaves, hq.enters, hstack.symm⟩
  · intro h
    have hstack := hsites t.node h.edge h.source h.target h.node h.leaves h.enters
    obtain ⟨d, hd, hsame⟩ := Option.map_eq_some_iff.mp (hstack.trans h.stack)
    have ht : t = (Position.mk t.node d).configuration := by simp [Position.configuration, hsame]
    exact ⟨⟨t.node, d⟩, ⟨h.edge, h.source, h.target, h.node, h.leaves, h.enters, hd⟩, ht.symm⟩

theorem exists_walk_iff (hfits : p.context.Fits g depth) (hroom : ∀ t,
      StackWalk g cfg p.configuration t → t.stack.length ≤ depth.toNat) :
    (∃ q, Walk g cfg p q ∧ q.configuration = t) ↔ StackWalk g cfg p.configuration t := by
  -- at every position of a walk the bound is that of its beginning
  have hnext {q : Position} (hq : Walk g cfg p q) (hw : StackWalk g cfg p.configuration q.configuration)
      (e : FlowEdge) (t : Configuration) :
      (∃ q', Leads g cfg q e q' ∧ q'.configuration = t) ↔ StackStep g cfg q.configuration e t := by
    refine exists_leads_iff fun t ht => ?_
    rw [(hq.fits hfits).bound]
    exact hroom t (hw.tail ⟨e, ht⟩)
  constructor
  · intro h
    obtain ⟨q, hq, rfl⟩ := h
    induction hq with
    | refl => exact .refl
    | tail hq hstep ih =>
      obtain ⟨e, he⟩ := hstep
      exact ih.tail ⟨e, (hnext hq ih e _).mp ⟨_, he, rfl⟩⟩
  · intro h
    induction h with
    | refl => exact ⟨p, .refl, rfl⟩
    | tail hw hstep ih =>
      obtain ⟨q, hq, rfl⟩ := ih
      obtain ⟨e, he⟩ := hstep
      obtain ⟨q', hlead, hq'⟩ := (hnext hq hw e _).mpr he
      exact ⟨q', hq.tail ⟨e, hlead⟩, hq'⟩

/-- No walk from a source has more calls open at once than the bound allows. -/
def WithinBound (g : FlowGraph) (cfg : FlowConfig) (depth : Int) : Prop :=
  ∀ a ∈ g.nodes, cfg.isSource a = true → ∀ t, StackWalk g cfg ⟨a, []⟩ t →
    (t.stack.length : Int) ≤ depth

theorem WithinBound.room (h : WithinBound g cfg depth) {a : FlowNode} (ha : a ∈ g.nodes)
    (hsource : cfg.isSource a = true) (hs : StackWalk g cfg ⟨a, []⟩ s) (t : Configuration)
    (ht : StackWalk g cfg s t) : t.stack.length ≤ depth.toNat := by
  have hlen := h a ha hsource t (hs.trans ht)
  omega

theorem WithinBound.arrives_escapes_iff (h : WithinBound g cfg depth) (t : Configuration) :
    (∃ q, Arrives g cfg depth q ∧ Escapes g cfg q ∧ q.configuration = t) ↔ OnRealizable g cfg t := by
  have harrive {a : FlowNode} (ha : a ∈ g.nodes) (hsource : cfg.isSource a = true)
      (s : Configuration) : (∃ q, Walk g cfg (.initial depth a) q ∧ q.configuration = s) ↔
        StackWalk g cfg ⟨a, []⟩ s :=
    exists_walk_iff (.empty g depth) (h.room ha hsource .refl)
  have hescape {a : FlowNode} {q : Position} (ha : a ∈ g.nodes) (hsource : cfg.isSource a = true)
      (hq : Walk g cfg (.initial depth a) q) (u : Configuration) :
      (∃ r, Walk g cfg q r ∧ r.configuration = u) ↔ StackWalk g cfg q.configuration u :=
    exists_walk_iff (hq.fits (.empty g depth))
      (h.room ha hsource ((harrive ha hsource _).mp ⟨q, hq, rfl⟩))
  constructor
  · intro hq
    obtain ⟨q, ⟨a, ha, hsource, hw⟩, ⟨r, hr, hsink⟩, rfl⟩ := hq
    exact ⟨⟨a, ha, hsource, (harrive ha hsource _).mp ⟨q, hw, rfl⟩⟩,
      r.configuration, (hescape ha hsource hw _).mp ⟨r, hr, rfl⟩, hsink⟩
  · intro ht
    obtain ⟨⟨a, ha, hsource, hw⟩, u, hu, hsink⟩ := ht
    obtain ⟨q, hq, rfl⟩ := (harrive ha hsource _).mpr hw
    obtain ⟨r, hr, rfl⟩ := (hescape ha hsource hq _).mpr hu
    exact ⟨q, ⟨a, ha, hsource, hq⟩, ⟨r, hr, hsink⟩, rfl⟩

theorem PathGraph.configuration_iff_build (hg : g.Valid) (t : Configuration) :
    (∃ n ∈ (build tag g cfg depth).nodes, n.configuration = t) ↔
      ∃ q, Arrives g cfg depth q ∧ Escapes g cfg q ∧ q.configuration = t := by
  constructor
  · intro h
    obtain ⟨n, hn, hconf⟩ := h
    exact ⟨n.position, (arrived_build hg hn).arrives, ((mem_nodes_build hg).mp hn).2, hconf⟩
  · intro h
    obtain ⟨q, hq, hescapes, rfl⟩ := h
    have hkept : ∃ n ∈ (build tag g cfg depth).nodes, n.At q := exists_build hg hq hescapes
    obtain ⟨n, hn, hat⟩ := hkept
    refine ⟨n, hn, ?_⟩
    simp [PathNode.configuration, Position.configuration, PathNode.position, hat.1, hat.2.1]

end Roomy

/-- Whatever is realizable, up to a sink, is in the path graph of every bound, step by step over the
same edges, in contexts that hold the latest of the open calls. If no more calls are ever open than
the bound allows, the path nodes are the places on realizable flows from a source to a sink. -/
theorem PathGraph.build_realizable (hg : g.Built) (tag : FlowTag) (cfg : FlowConfig) (depth : Int) :
    let p := build tag g cfg depth
    ((∀ e ∈ g.edges, e.callSite.isScalar = true) → build? tag g cfg depth = some p) ∧
    (∀ a ∈ g.nodes, cfg.isSource a = true → ∀ steps t, Trail (StackStep g cfg) ⟨a, []⟩ steps t →
      cfg.isSink t.node = true → ∃ n ∈ p.sources, n.configuration = ⟨a, []⟩ ∧
        ∃ steps' m, Trail (p.Follows g cfg) n steps' m ∧ m ∈ p.sinks ∧ m.Abridges t ∧
          List.Forall₂ (fun x y => y.1 = x.1 ∧ y.2.Abridges x.2) steps steps') ∧
    (WithinBound g cfg depth →
      Set.BijOn PathNode.configuration {n | n ∈ p.nodes} {t | OnRealizable g cfg t}) := by
  intro p
  refine ⟨build?_eq_some hg.valid, fun a ha hsource steps t htrail hsink => ?_, fun h => ⟨?_, ?_, ?_⟩⟩
  · have hescapes : Escapes g cfg (.initial depth a) :=
      htrail.walk.escapes hsink rfl List.suffix_rfl
    have hkept : ∃ n ∈ p.nodes, n.At (.initial depth a) :=
      exists_build hg.valid ⟨a, ha, hsource, .refl⟩ hescapes
    obtain ⟨n, hn, hnode, hsites, -⟩ := hkept
    have hflag : n.isSource = true := by
      refine (arrived_build hg.valid hn).source.mpr ⟨?_, hsites⟩
      rw [hnode]
      exact hsource
    have habridges : n.Abridges ⟨a, []⟩ := ⟨hnode, hsites ▸ List.suffix_rfl⟩
    refine ⟨n, List.mem_filter.mpr ⟨hn, hflag⟩, ?_, exists_trail hg.valid hn habridges htrail hsink⟩
    rw [PathNode.configuration, Position.configuration, Configuration.mk.injEq]
    exact ⟨hnode, hsites⟩
  · exact fun n hn => (h.arrives_escapes_iff _).mp
      ((configuration_iff_build hg.valid _).mp ⟨n, hn, rfl⟩)
  · intro n hn m hm heq
    obtain ⟨hnode, hsites⟩ := Configuration.mk.inj heq
    exact place_inj_build hg.valid hn hm (Prod.ext (congrArg FlowNode.id hnode) hsites)
  · exact fun t ht => (configuration_iff_build hg.valid t).mpr ((h.arrives_escapes_iff t).mpr ht)

/-- One value goes through two calls, one inside of the other, of which a call string keeps the later
one. The other value is never in more than one call. -/
theorem PathGraph.build_realizable_sample :
    let caller (id : Text) : FlowNode := { id, routine := { name := .text "main".toList } }
    let callee (id : Text) : FlowNode := { id, routine := { name := .text "f".toList } }
    let nested := FlowConfig.ofIds [['s']] [['k']] []
    let once := FlowConfig.ofIds [['t']] [['l']] []
    let p := build ⟨['A'], 0⟩ .sample nested 1
    let q := build ⟨['A'], 0⟩ .sample once 1
    FlowGraph.sample.Built ∧
    (∃ steps, Trail (StackStep .sample nested) ⟨caller ['s'], []⟩ steps
        ⟨callee ['k'], [.text ['c'], .text ['r']]⟩ ∧
      ∃ n ∈ p.sources, n.configuration = ⟨caller ['s'], []⟩ ∧
        ∃ steps' m, Trail (p.Follows .sample nested) n steps' m ∧ m ∈ p.sinks ∧
          m.Abridges ⟨callee ['k'], [.text ['c'], .text ['r']]⟩ ∧
          List.Forall₂ (fun x y => y.1 = x.1 ∧ y.2.Abridges x.2) steps steps') ∧
    WithinBound .sample once 1 ∧
    Set.BijOn PathNode.configuration {n | n ∈ q.nodes} {t | OnRealizable .sample once t} := by
  intro caller callee nested once p q
  have hnested := (build_realizable FlowGraph.built_sample ⟨['A'], 0⟩ nested 1).2.1
  have honce := (build_realizable FlowGraph.built_sample ⟨['A'], 0⟩ once 1).2.2
  let enter : FlowEdge := { source := ['s'], target := ['p'], kind := .call, callSite := .text ['c'] }
  let again : FlowEdge := { source := ['p'], target := ['p'], kind := .call, callSite := .text ['r'] }
  have htrail : Trail (StackStep .sample nested) ⟨caller ['s'], []⟩
      [(enter, ⟨callee ['p'], [.text ['c']]⟩), (again, ⟨callee ['p'], [.text ['c'], .text ['r']]⟩),
        ({ source := ['p'], target := ['k'] }, ⟨callee ['k'], [.text ['c'], .text ['r']]⟩)]
      ⟨callee ['k'], [.text ['c'], .text ['r']]⟩ :=
    .cons (by decide) (.cons (by decide) (.cons (by decide) .nil))
  -- the value handed to the call stays in it
  let places : List Configuration :=
    [⟨caller ['t'], []⟩, ⟨callee ['q'], [.text ['c']]⟩, ⟨callee ['l'], [.text ['c']]⟩]
  have hstays : ∀ s ∈ places, ∀ e ∈ FlowGraph.sample.edges, e.source = s.node.id →
      ∀ k ∈ FlowGraph.sample.nodes, e.target = k.id →
      ∀ stack ∈ CallStack.along s.stack e, ⟨k, stack⟩ ∈ places := by decide
  have hwithin : WithinBound .sample once 1 := by
    intro a ha hsource t ht
    have hstart : ∀ a ∈ FlowGraph.sample.nodes, once.isSource a = true →
        (⟨a, []⟩ : Configuration) ∈ places := by decide
    have hplace : t ∈ places := by
      induction ht with
      | refl => exact hstart a ha hsource
      | tail _ hstep ih =>
        obtain ⟨e, he⟩ := hstep
        exact hstays _ ih e he.edge he.source _ he.node he.target _ he.stack
    have hlength : ∀ t ∈ places, (t.stack.length : Int) ≤ 1 := by decide
    exact hlength t hplace
  exact ⟨FlowGraph.built_sample,
    ⟨_, htrail, hnested (caller ['s']) (by decide) (by decide) _ _ htrail (by decide)⟩,
    hwithin, honce hwithin⟩

end Lockstep
