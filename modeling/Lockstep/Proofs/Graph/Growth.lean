import Mathlib.Logic.Relation
import Lockstep.Proofs.Graph.Built
/-!
Graphs that grow. An addition appends, and takes nothing away: what came first in a graph comes first
in every graph that further additions make of it.
-/

set_option autoImplicit false

namespace Lockstep.FlowGraph

/-- An addition that is not refused. -/
inductive Adds (g : FlowGraph) : FlowGraph → Prop
  | routine {r r' : Routine} {g' : FlowGraph} : g.addRoutine r = .ok (r', g') → Adds g g'
  | node {n : FlowNode} {g' : FlowGraph} : g.addNode n = .ok g' → Adds g g'
  | edge {e : FlowEdge} {g' : FlowGraph} : g.addEdge e = .ok g' → Adds g g'

/-- One graph comes of another by further additions; what was refused has changed nothing. -/
abbrev Grows : FlowGraph → FlowGraph → Prop := Relation.ReflTransGen Adds

/-- Everything in the one graph comes first in the other, in the same order. -/
structure Begins (g g' : FlowGraph) : Prop where
  routines : g.routines <+: g'.routines
  nodes : g.nodes <+: g'.nodes
  edges : g.edges <+: g'.edges

variable {g g' h : FlowGraph}

theorem Begins.refl (g : FlowGraph) : Begins g g :=
  ⟨List.prefix_refl _, List.prefix_refl _, List.prefix_refl _⟩

theorem Begins.trans (h₁ : Begins g g') (h₂ : Begins g' h) : Begins g h :=
  ⟨h₁.routines.trans h₂.routines, h₁.nodes.trans h₂.nodes, h₁.edges.trans h₂.edges⟩

theorem begins_addRoutine {r r' : Routine} (h : g.addRoutine r = .ok (r', g')) : Begins g g' := by
  rcases addRoutine_eq_ok h with ⟨-, rfl⟩ | ⟨-, -, rfl⟩
  · exact .refl g'
  · exact ⟨List.prefix_append _ _, List.prefix_refl _, List.prefix_refl _⟩

theorem Adds.begins (h : Adds g g') : Begins g g' := by
  cases h with
  | routine hr => exact begins_addRoutine hr
  | node hn =>
    obtain ⟨r, k, -, hr, rfl⟩ := addNode_eq_ok hn
    exact (begins_addRoutine hr).trans
      ⟨List.prefix_refl _, List.prefix_append _ _, List.prefix_refl _⟩
  | edge he =>
    obtain ⟨s, t, -, -, -, -, rfl⟩ := addEdge_eq_ok he
    exact ⟨List.prefix_refl _, List.prefix_refl _, List.prefix_append _ _⟩

theorem Grows.begins (h : Grows g g') : Begins g g' := by
  induction h with
  | refl => exact .refl g
  | tail _ hadds ih => exact ih.trans hadds.begins

theorem Built.adds (hg : g.Built) (h : Adds g g') : g'.Built := by
  cases h with
  | routine hr => exact hg.addRoutine hr
  | node hn => exact hg.addNode hn
  | edge he => exact hg.addEdge he

theorem Built.grows (hg : g.Built) (h : Grows g g') : g'.Built := by
  induction h with
  | refl => exact hg
  | tail _ hadds ih => exact ih.adds hadds

/-- The built graphs are those that the empty one grows to. -/
theorem built_iff_grows : g.Built ↔ Grows .empty g := by
  constructor
  · intro h
    induction h with
    | empty => exact .refl
    | addRoutine _ hr ih => exact ih.tail (.routine hr)
    | addNode _ hn ih => exact ih.tail (.node hn)
    | addEdge _ he ih => exact ih.tail (.edge he)
  · exact Built.empty.grows

end Lockstep.FlowGraph
