import Lockstep.Flow.Settled
import Lockstep.Proofs.Flow.Complete
/-!
Graphs that list one program. A graph is looked up by identifiers and gone through from end to end, so
that another order, or an edge that is listed again, leads to the same positions. Only the indices of
path nodes and the edges that steps are found by may then be others.
-/

set_option autoImplicit false

namespace Lockstep

/-- Both graphs list the same routines, nodes and edges, in any order and any number of times. -/
structure FlowGraph.SameProgram (g g' : FlowGraph) : Prop where
  routines : ∀ r, r ∈ g.routines ↔ r ∈ g'.routines
  nodes : ∀ n, n ∈ g.nodes ↔ n ∈ g'.nodes
  edges : ∀ e, e ∈ g.edges ↔ e ∈ g'.edges

variable {g g' : FlowGraph} {cfg : FlowConfig} {tag : FlowTag} {depth : Int} {s t : Position}

theorem FlowGraph.SameProgram.symm (h : g.SameProgram g') : g'.SameProgram g where
  routines r := (h.routines r).symm
  nodes n := (h.nodes n).symm
  edges e := (h.edges e).symm

theorem FlowStep.relist (hst : FlowStep g cfg s t) (h : g.SameProgram g') : FlowStep g' cfg s t := by
  obtain ⟨e, he⟩ := hst
  exact ⟨e, { he with edge := (h.edges e).mp he.edge, node := (h.nodes _).mp he.node }⟩

theorem Arrives.relist (ht : Arrives g cfg depth t) (h : g.SameProgram g') :
    Arrives g' cfg depth t := by
  obtain ⟨n, hn, hsource, hw⟩ := ht
  exact ⟨n, (h.nodes n).mp hn, hsource, hw.lift id fun _ _ hst => hst.relist h⟩

namespace Exploration

theorem settledBy_iff (hg : g.Valid) {barrier : FlowNode → Option Bool} {x : Exploration} :
    x.settledBy g barrier = true ↔ ∀ n ∈ x.nodes, barrier n.node = some true ∨
      barrier n.node = some false ∧ ∀ e ∈ g.edges, e.source = n.node.id →
        ∀ m ∈ g.nodes, m.id = e.target → (barrier m).isSome = true := by
  simp only [settledBy, List.all_eq_true]
  refine forall₂_congr fun n _ => ?_
  cases barrier n.node with
  | none => simp
  | some answer =>
    cases answer with
    | true => simp
    | false =>
      simp only [List.all_eq_true, FlowGraph.mem_outEdges, and_imp, true_and, reduceCtorEq,
        Option.some.injEq, false_or]
      refine forall₃_congr fun e _ _ => ?_
      constructor
      · intro h m hm hid
        simpa [hg.findNode?_eq_some.mpr ⟨hm, hid⟩] using h
      · intro h
        cases hf : g.findNode? e.target with
        | none => rfl
        | some m => exact h m (FlowGraph.mem_of_findNode? hf).1 (FlowGraph.mem_of_findNode? hf).2

/-- The flow nodes and sites of the one exploration are those of the other. -/
theorem forall_complete_relist {P : FlowNode → List Json → Prop} (hg : g.Valid) (hg' : g'.Valid)
    (h : g.SameProgram g')
    (hP : ∀ n ∈ (complete tag g cfg depth).nodes, P n.node n.context.sites) :
    ∀ n ∈ (complete tag g' cfg depth).nodes, P n.node n.context.sites := by
  intro n hn
  have harrives := ((complete_settled hg').arrived n hn).arrives
  have hmet : ∃ m ∈ (complete tag g cfg depth).nodes, m.At n.position :=
    exists_complete hg (harrives.relist h.symm)
  obtain ⟨m, hm, hnode, hsame⟩ := hmet
  have hthere := hP m hm
  rwa [hnode, hsame.1] at hthere

theorem isNameable_relist (hg : g.Valid) (hg' : g'.Valid) (h : g.SameProgram g') :
    (complete tag g cfg depth).isNameable = (complete tag g' cfg depth).isNameable := by
  let P (_ : FlowNode) (sites : List Json) : Prop := sites.all Json.isScalar = true
  have hiff (x : Exploration) :
      x.isNameable = true ↔ ∀ n ∈ x.nodes, P n.node n.context.sites := List.all_eq_true
  rw [Bool.eq_iff_iff, hiff, hiff]
  exact ⟨forall_complete_relist hg hg' h, forall_complete_relist hg' hg h.symm⟩

theorem settledBy_relist (hg : g.Valid) (hg' : g'.Valid) (h : g.SameProgram g')
    (barrier : FlowNode → Option Bool) :
    (complete tag g cfg depth).settledBy g barrier =
      (complete tag g' cfg depth).settledBy g' barrier := by
  let P (node : FlowNode) (_ : List Json) : Prop := barrier node = some true ∨
    barrier node = some false ∧ ∀ e ∈ g.edges, e.source = node.id →
      ∀ m ∈ g.nodes, m.id = e.target → (barrier m).isSome = true
  have hP : (complete tag g cfg depth).settledBy g barrier = true ↔
      ∀ n ∈ (complete tag g cfg depth).nodes, P n.node n.context.sites := settledBy_iff hg
  have hP' : (complete tag g' cfg depth).settledBy g' barrier = true ↔
      ∀ n ∈ (complete tag g' cfg depth).nodes, P n.node n.context.sites := by
    simp only [settledBy_iff hg', P, h.edges, h.nodes]
  rw [Bool.eq_iff_iff, hP, hP']
  exact ⟨forall_complete_relist hg hg' h, forall_complete_relist hg' hg h.symm⟩

end Exploration
end Lockstep
