import Lockstep.Pair.Projection
import Lockstep.Proofs.Graph.Built
/-!
What the single flows of a declaration are. A node of a graph is a source of flow A if it is the
first member of some source pair of its routine, and so with the second members, with flow B and
with the sinks.
-/

set_option autoImplicit false

namespace Lockstep

theorem FlowGraph.of_mem_routinePairs {g : FlowGraph} {p : FlowNode × FlowNode}
    (hp : p ∈ g.routinePairs) : p.1 ∈ g.nodes ∧ p.2 ∈ g.nodes ∧ p.1.routine = p.2.routine := by
  simp only [routinePairs, nodesIn, List.mem_flatMap, List.mem_map, List.mem_filter,
    beq_iff_eq] at hp
  obtain ⟨r, -, a, ⟨ha, hra⟩, b, ⟨hb, hrb⟩, rfl⟩ := hp
  exact ⟨ha, hb, hra.trans hrb.symm⟩

theorem FlowGraph.Valid.mem_routinePairs {g : FlowGraph} (hg : g.Valid) {a b : FlowNode} :
    (a, b) ∈ g.routinePairs ↔ a ∈ g.nodes ∧ b ∈ g.nodes ∧ a.routine = b.routine := by
  refine ⟨of_mem_routinePairs, fun ⟨ha, hb, hr⟩ => ?_⟩
  simp only [routinePairs, nodesIn, List.mem_flatMap, List.mem_map, List.mem_filter, beq_iff_eq]
  exact ⟨a.routine, hg.routine_mem a ha, a, ⟨ha, rfl⟩, b, ⟨hb, hr.symm⟩, rfl⟩

namespace Projection

variable {g : FlowGraph} {pairs : PairConfig} {side : Side} {n : FlowNode}

theorem member_mem (hg : g.Valid) {p : FlowNode × FlowNode} (hp : p ∈ g.routinePairs) :
    member side p ∈ g.nodes := by
  have hmem := hg.mem_routinePairs.mp hp
  cases side with
  | a => exact hmem.1
  | b => exact hmem.2.1

theorem mem_membersOf (hg : g.Valid) {relation : FlowNode → FlowNode → Bool} (hn : n ∈ g.nodes) :
    n.id ∈ membersOf g side relation ↔
    ∃ p ∈ g.routinePairs, relation p.1 p.2 = true ∧ member side p = n := by
  simp only [membersOf, List.mem_eraseDups, List.mem_map, List.mem_filter, and_assoc]
  constructor
  · intro h
    obtain ⟨p, hp, hrel, hid⟩ := h
    exact ⟨p, hp, hrel, hg.node_ext (member_mem hg hp) hn hid⟩
  · intro h
    obtain ⟨p, hp, hrel, rfl⟩ := h
    exact ⟨p, hp, hrel, rfl⟩

theorem isSource_config (hg : g.Valid) (hn : n ∈ g.nodes) :
    ((of pairs g side).config pairs).isSource n = true ↔
    ∃ p ∈ g.routinePairs, pairs.isSourcePair p.1 p.2 = true ∧ member side p = n := by
  simpa [config, of] using mem_membersOf hg hn

theorem isSink_config (hg : g.Valid) (hn : n ∈ g.nodes) :
    ((of pairs g side).config pairs).isSink n = true ↔
    ∃ p ∈ g.routinePairs, pairs.isSinkPair p.1 p.2 = true ∧ member side p = n := by
  simpa [config, of] using mem_membersOf hg hn

end Projection

end Lockstep
