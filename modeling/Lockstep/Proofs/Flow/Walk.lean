import Mathlib.Logic.Relation
import Lockstep.Proofs.Flow.Context
import Lockstep.Proofs.Graph.Built
/-!
Walks through a flow graph. A position is a node in a calling context, and a walk goes from position
to position along the edges of the graph as far as the contexts allow, never into a barrier and
never out of one. A path graph is to hold the positions on the walks from a source to a sink.
-/

set_option autoImplicit false

namespace Lockstep

structure Position where
  node : FlowNode
  context : CallString

namespace Position

/-- What tells positions apart: the node and the sites of the open calls. -/
def place (p : Position) : Text × List Json := (p.node.id, p.context.sites)

def initial (depth : Int) (n : FlowNode) : Position := ⟨n, .empty depth⟩

end Position

/-- An edge leads from one position to another. -/
structure Leads (g : FlowGraph) (cfg : FlowConfig) (s : Position) (e : FlowEdge) (t : Position) :
    Prop where
  edge : e ∈ g.edges
  source : e.source = s.node.id
  target : e.target = t.node.id
  node : t.node ∈ g.nodes
  leaves : cfg.isBarrier s.node = false
  enters : cfg.isBarrier t.node = false
  context : s.context.along e = some t.context

def FlowStep (g : FlowGraph) (cfg : FlowConfig) (s t : Position) : Prop :=
  ∃ e, Leads g cfg s e t

abbrev Walk (g : FlowGraph) (cfg : FlowConfig) : Position → Position → Prop :=
  Relation.ReflTransGen (FlowStep g cfg)

/-- A walk from a source leads to this position. -/
def Arrives (g : FlowGraph) (cfg : FlowConfig) (depth : Int) (t : Position) : Prop :=
  ∃ n ∈ g.nodes, cfg.isSource n = true ∧ Walk g cfg (.initial depth n) t

/-- A walk from this position leads to a sink. -/
def Escapes (g : FlowGraph) (cfg : FlowConfig) (s : Position) : Prop :=
  ∃ t, Walk g cfg s t ∧ cfg.isSink t.node = true

variable {g : FlowGraph} {cfg : FlowConfig} {depth : Int} {s t : Position}

theorem Arrives.step (h : Arrives g cfg depth s) (hst : FlowStep g cfg s t) :
    Arrives g cfg depth t := by
  obtain ⟨n, hn, hsrc, hw⟩ := h
  exact ⟨n, hn, hsrc, hw.tail hst⟩

theorem Escapes.walk (hw : Walk g cfg s t) (h : Escapes g cfg t) : Escapes g cfg s := by
  obtain ⟨u, hu, hsink⟩ := h
  exact ⟨u, hw.trans hu, hsink⟩

theorem FlowStep.mem_nodes (h : FlowStep g cfg s t) : t.node ∈ g.nodes := h.elim fun _ he => he.node

theorem Walk.mem_nodes (h : Walk g cfg s t) (hs : s.node ∈ g.nodes) : t.node ∈ g.nodes := by
  cases h with
  | refl => exact hs
  | tail _ hst => exact hst.mem_nodes

theorem Arrives.mem_nodes (h : Arrives g cfg depth t) : t.node ∈ g.nodes := by
  obtain ⟨n, hn, -, hw⟩ := h
  exact hw.mem_nodes hn

theorem Walk.fits (h : Walk g cfg s t) (hs : s.context.Fits g depth) : t.context.Fits g depth := by
  induction h with
  | refl => exact hs
  | tail _ hst ih =>
    obtain ⟨e, he⟩ := hst
    exact ih.along he.edge he.context

theorem Arrives.fits (h : Arrives g cfg depth t) : t.context.Fits g depth := by
  obtain ⟨n, -, -, hw⟩ := h
  exact hw.fits (.empty g depth)

/-- The first of two related contexts allows whatever the second one allows, and they stay related. -/
def CallString.Simulates (R : CallString → CallString → Prop) : Prop :=
  ∀ {c d d' : CallString} {e : FlowEdge}, R c d → d.along e = some d' →
    ∃ c', c.along e = some c' ∧ R c' d'

variable {R : CallString → CallString → Prop}

theorem Leads.simulated {e : FlowEdge} {s' : Position} (h : Leads g cfg s e t)
    (hR : CallString.Simulates R) (hn : s'.node = s.node) (hc : R s'.context s.context) :
    ∃ d, Leads g cfg s' e ⟨t.node, d⟩ ∧ R d t.context := by
  obtain ⟨d, hd, hrel⟩ := hR hc h.context
  exact ⟨d, ⟨h.edge, hn ▸ h.source, h.target, h.node, hn ▸ h.leaves, h.enters, hd⟩, hrel⟩

theorem FlowStep.simulated {s' : Position} (h : FlowStep g cfg s t) (hR : CallString.Simulates R)
    (hn : s'.node = s.node) (hc : R s'.context s.context) :
    ∃ d, FlowStep g cfg s' ⟨t.node, d⟩ ∧ R d t.context := by
  obtain ⟨e, he⟩ := h
  obtain ⟨d, hd, hrel⟩ := he.simulated hR hn hc
  exact ⟨d, ⟨e, hd⟩, hrel⟩

theorem Walk.simulated {s' : Position} (h : Walk g cfg s t) (hR : CallString.Simulates R)
    (hn : s'.node = s.node) (hc : R s'.context s.context) :
    ∃ d, Walk g cfg s' ⟨t.node, d⟩ ∧ R d t.context := by
  induction h with
  | refl =>
    refine ⟨s'.context, ?_, hc⟩
    rw [← hn]
  | @tail u v _ huv ih =>
    obtain ⟨d, hw, hrel⟩ := ih
    have hu : (Position.mk u.node d).node = u.node := rfl
    obtain ⟨d', hstep, hrel'⟩ := huv.simulated hR hu hrel
    exact ⟨d', hw.tail hstep, hrel'⟩

theorem Escapes.simulated {s' : Position} (h : Escapes g cfg s) (hR : CallString.Simulates R)
    (hn : s'.node = s.node) (hc : R s'.context s.context) : Escapes g cfg s' := by
  obtain ⟨t, hw, hsink⟩ := h
  obtain ⟨d, hw', -⟩ := hw.simulated hR hn hc
  exact ⟨_, hw', hsink⟩

/-- How sites are written does not matter to where a context leads. -/
theorem CallString.same_simulates : CallString.Simulates CallString.Same := by
  intro c d d' e hc hd
  obtain ⟨c', hc', hsame⟩ := hc.symm.along hd
  exact ⟨c', hc', hsame.symm⟩

theorem Leads.same {e : FlowEdge} {s' : Position} (h : Leads g cfg s e t)
    (hn : s.node = s'.node) (hc : s.context.Same s'.context) :
    ∃ d, Leads g cfg s' e ⟨t.node, d⟩ ∧ t.context.Same d := by
  obtain ⟨d, hd, hsame⟩ := h.simulated CallString.same_simulates hn.symm hc.symm
  exact ⟨d, hd, hsame.symm⟩

end Lockstep
