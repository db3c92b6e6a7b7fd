import Mathlib.Data.List.Nodup
import Lockstep.Graph.Basic
/-!
Graphs that additions have built, and what every addition keeps: identifiers and routine names are
unique, and edges lead from nodes of the graph to nodes of the graph, inside of a routine where they
have to.
-/

set_option autoImplicit false

namespace Lockstep.FlowGraph

/-- A graph made by additions to the empty one; what was refused has changed nothing. -/
inductive Built : FlowGraph → Prop
  | empty : Built .empty
  | addRoutine {g g' : FlowGraph} {r r' : Routine} :
      Built g → g.addRoutine r = .ok (r', g') → Built g'
  | addNode {g g' : FlowGraph} {n : FlowNode} : Built g → g.addNode n = .ok g' → Built g'
  | addEdge {g g' : FlowGraph} {e : FlowEdge} : Built g → g.addEdge e = .ok g' → Built g'

structure Valid (g : FlowGraph) : Prop where
  names : (g.routines.map (·.name.key)).Nodup
  ids : (g.nodes.map (·.id)).Nodup
  routine_mem : ∀ n ∈ g.nodes, n.routine ∈ g.routines
  source_mem : ∀ e ∈ g.edges, ∃ n ∈ g.nodes, n.id = e.source
  target_mem : ∀ e ∈ g.edges, ∃ n ∈ g.nodes, n.id = e.target
  site : ∀ e ∈ g.edges, e.kind.needsSite = true → e.callSite.holds = true
  internal : ∀ e ∈ g.edges, e.kind = .internal →
    ∀ m ∈ g.nodes, ∀ n ∈ g.nodes, m.id = e.source → n.id = e.target → m.routine = n.routine

@[simp] theorem mem_outEdges {g : FlowGraph} {id : Text} {e : FlowEdge} :
    e ∈ g.outEdges id ↔ e ∈ g.edges ∧ e.source = id := by
  simp [outEdges]

theorem findNode?_eq_none {g : FlowGraph} {id : Text} :
    g.findNode? id = none ↔ ∀ n ∈ g.nodes, n.id ≠ id := by
  simp [findNode?]

theorem mem_of_findNode? {g : FlowGraph} {id : Text} {n : FlowNode}
    (h : g.findNode? id = some n) : n ∈ g.nodes ∧ n.id = id :=
  ⟨List.mem_of_find?_eq_some h, by simpa using List.find?_some h⟩

theorem Valid.node_ext {g : FlowGraph} (h : g.Valid) {m n : FlowNode} (hm : m ∈ g.nodes)
    (hn : n ∈ g.nodes) (hid : m.id = n.id) : m = n :=
  List.inj_on_of_nodup_map h.ids hm hn hid

theorem Valid.routine_ext {g : FlowGraph} (h : g.Valid) {r s : Routine} (hr : r ∈ g.routines)
    (hs : s ∈ g.routines) (hname : r.name.key = s.name.key) : r = s :=
  List.inj_on_of_nodup_map h.names hr hs hname

theorem Valid.findNode?_eq_some {g : FlowGraph} (h : g.Valid) {id : Text} {n : FlowNode} :
    g.findNode? id = some n ↔ n ∈ g.nodes ∧ n.id = id := by
  refine ⟨mem_of_findNode?, fun ⟨hn, hid⟩ => ?_⟩
  cases hf : g.findNode? id with
  | none => exact absurd hid (findNode?_eq_none.mp hf n hn)
  | some m =>
    obtain ⟨hm, hm'⟩ := mem_of_findNode? hf
    rw [h.node_ext hm hn (hm'.trans hid.symm)]

theorem Valid.findRoutine?_name {g : FlowGraph} (h : g.Valid) {r : Routine} (hr : r ∈ g.routines) :
    g.findRoutine? r.name = some r := by
  cases hf : g.findRoutine? r.name with
  | none =>
    unfold findRoutine? at hf
    exact absurd (beq_self_eq_true r.name.key) (List.find?_eq_none.mp hf r hr)
  | some s =>
    have hname : s.name.key = r.name.key := by simpa using List.find?_some hf
    rw [h.routine_ext (List.mem_of_find?_eq_some hf) hr hname]

/-- A routine that is registered is the one that was known by that name, or it is new. -/
theorem addRoutine_eq_ok {g g' : FlowGraph} {r r' : Routine} (h : g.addRoutine r = .ok (r', g')) :
    (r' ∈ g.routines ∧ g' = g) ∨
    ((∀ s ∈ g.routines, s.name.key ≠ r.name.key) ∧ r' = r ∧
      g' = { g with routines := g.routines ++ [r] }) := by
  unfold addRoutine at h
  cases hf : g.findRoutine? r.name with
  | some known =>
    by_cases ha : known.agrees r = true
    · simp [hf, ha] at h
      exact Or.inl ⟨h.1 ▸ List.mem_of_find?_eq_some hf, h.2.symm⟩
    · simp [hf, ha] at h
  | none =>
    simp [hf] at h
    exact Or.inr ⟨by simpa [findRoutine?] using hf, h.1.symm, h.2.symm⟩

theorem addRoutine_frame {g g' : FlowGraph} {r r' : Routine} (h : g.addRoutine r = .ok (r', g')) :
    g'.nodes = g.nodes ∧ g'.edges = g.edges := by
  rcases addRoutine_eq_ok h with ⟨-, rfl⟩ | ⟨-, -, rfl⟩ <;> exact ⟨rfl, rfl⟩

theorem addNode_eq_ok {g g' : FlowGraph} {n : FlowNode} (h : g.addNode n = .ok g') :
    ∃ r h', (∀ m ∈ g.nodes, m.id ≠ n.id) ∧ g.addRoutine n.routine = .ok (r, h') ∧
      g' = { h' with nodes := h'.nodes ++ [{ n with routine := r }] } := by
  unfold addNode at h
  by_cases hc : g.contains n.id = true
  · simp [hc] at h
  · cases hr : g.addRoutine n.routine with
    | error e => simp [hc, hr] at h
    | ok rg =>
      obtain ⟨r, h'⟩ := rg
      simp [hc, hr] at h
      have hid : g.findNode? n.id = none := by simpa [contains] using hc
      exact ⟨r, h', findNode?_eq_none.mp hid, rfl, h.symm⟩

theorem node_eq_ok {g : FlowGraph} {id : Text} {n : FlowNode} (h : g.node id = .ok n) :
    n ∈ g.nodes ∧ n.id = id := by
  unfold node at h
  cases hf : g.findNode? id with
  | none => simp [hf] at h
  | some m =>
    simp [hf] at h
    exact h ▸ mem_of_findNode? hf

theorem addEdge_eq_ok {g g' : FlowGraph} {e : FlowEdge} (h : g.addEdge e = .ok g') :
    ∃ s t, (s ∈ g.nodes ∧ s.id = e.source) ∧ (t ∈ g.nodes ∧ t.id = e.target) ∧
      (e.kind.needsSite = true → e.callSite.holds = true) ∧
      (e.kind = .internal → s.routine = t.routine) ∧ g' = { g with edges := g.edges ++ [e] } := by
  unfold addEdge at h
  cases hs : g.node e.source with
  | error err => simp [hs] at h
  | ok s =>
    cases ht : g.node e.target with
    | error err => simp [hs, ht] at h
    | ok t =>
      simp only [hs, ht] at h
      by_cases hsite : (e.kind.needsSite && !e.callSite.holds) = true
      · simp [hsite] at h
      · rw [if_neg hsite] at h
        by_cases hin : e.kind = .internal ∧ s.routine ≠ t.routine
        · simp [hin] at h
        · rw [if_neg hin] at h
          refine ⟨s, t, node_eq_ok hs, node_eq_ok ht, by simpa using hsite, ?_, ?_⟩
          · intro hk
            exact Classical.byContradiction fun hne => hin ⟨hk, hne⟩
          · exact (Except.ok.inj h).symm

theorem Valid.addRoutine {g g' : FlowGraph} {r r' : Routine} (hg : g.Valid)
    (h : g.addRoutine r = .ok (r', g')) :
    g'.Valid ∧ r' ∈ g'.routines ∧ g'.nodes = g.nodes ∧ g'.edges = g.edges := by
  rcases addRoutine_eq_ok h with ⟨hr, rfl⟩ | ⟨hnew, rfl, rfl⟩
  · exact ⟨hg, hr, rfl, rfl⟩
  · have hnames : ((g.routines ++ [r']).map (·.name.key)).Nodup := by
      rw [List.map_append, List.nodup_append]
      refine ⟨hg.names, by simp, ?_⟩
      intro a ha b hb e
      obtain ⟨s, hs, rfl⟩ := List.mem_map.mp ha
      exact hnew s hs (by simpa [e] using hb)
    refine ⟨{ hg with names := hnames, routine_mem := ?_ }, by simp, rfl, rfl⟩
    intro n hn
    exact List.mem_append_left _ (hg.routine_mem n hn)

theorem Valid.addNode {g g' : FlowGraph} {n : FlowNode} (hg : g.Valid)
    (h : g.addNode n = .ok g') : g'.Valid := by
  obtain ⟨r, h', hnew, hr, rfl⟩ := addNode_eq_ok h
  obtain ⟨hv, hmem, hnodes, hedges⟩ := hg.addRoutine hr
  have old {id : Text} (h : ∃ m ∈ h'.nodes, m.id = id) :
      ∃ m ∈ h'.nodes ++ [{ n with routine := r }], m.id = id := by
    obtain ⟨m, hm, hid⟩ := h
    exact ⟨m, List.mem_append_left _ hm, hid⟩
  -- an edge's ends are old nodes, since the new identifier is no old one
  have stays {m : FlowNode} {id : Text} (hm : m ∈ h'.nodes ++ [{ n with routine := r }])
      (hid : m.id = id) (h : ∃ k ∈ h'.nodes, k.id = id) : m ∈ h'.nodes := by
    rcases List.mem_append.mp hm with hm | hm
    · exact hm
    · obtain ⟨k, hk, hk'⟩ := h
      rw [List.mem_singleton.mp hm] at hid
      exact absurd (hk'.trans hid.symm) (hnew k (hnodes ▸ hk))
  refine ⟨hv.names, ?_, ?_, fun e he => old (hv.source_mem e he),
    fun e he => old (hv.target_mem e he), hv.site, ?_⟩
  · rw [List.map_append, List.nodup_append]
    refine ⟨hv.ids, by simp, ?_⟩
    intro a ha b hb e
    obtain ⟨m, hm, rfl⟩ := List.mem_map.mp ha
    exact hnew m (hnodes ▸ hm) (by simpa [e] using hb)
  · intro m hm
    rcases List.mem_append.mp hm with hm | hm
    · exact hv.routine_mem m hm
    · rw [List.mem_singleton.mp hm]
      exact hmem
  · intro e he hk a ha b hb hs ht
    exact hv.internal e he hk a (stays ha hs (hv.source_mem e he)) b
      (stays hb ht (hv.target_mem e he)) hs ht

theorem Valid.addEdge {g g' : FlowGraph} {e : FlowEdge} (hg : g.Valid)
    (h : g.addEdge e = .ok g') : g'.Valid := by
  obtain ⟨s, t, hs, ht, hsite, hin, rfl⟩ := addEdge_eq_ok h
  -- what holds of the old edges and of the new one holds of all
  have all {P : FlowEdge → Prop} (hold : ∀ d ∈ g.edges, P d) (hnew : P e) :
      ∀ d ∈ g.edges ++ [e], P d := by
    intro d hd
    rcases List.mem_append.mp hd with hd | hd
    · exact hold d hd
    · exact List.mem_singleton.mp hd ▸ hnew
  refine ⟨hg.names, hg.ids, hg.routine_mem, all hg.source_mem ⟨s, hs⟩, all hg.target_mem ⟨t, ht⟩,
    all hg.site hsite, all hg.internal ?_⟩
  intro hk m hm n hn hms hnt
  rw [hg.node_ext hm hs.1 (hms.trans hs.2.symm), hg.node_ext hn ht.1 (hnt.trans ht.2.symm)]
  exact hin hk

theorem Built.valid {g : FlowGraph} (h : g.Built) : g.Valid := by
  induction h with
  | empty => constructor <;> simp [FlowGraph.empty]
  | addRoutine _ hr ih => exact (ih.addRoutine hr).1
  | addNode _ hn ih => exact ih.addNode hn
  | addEdge _ he ih => exact ih.addEdge he

def assemble (nodes : List FlowNode) (edges : List FlowEdge) : Except GraphError FlowGraph := do
  edges.foldlM addEdge (← nodes.foldlM addNode empty)

theorem Built.foldlM {α : Type} {add : FlowGraph → α → Except GraphError FlowGraph}
    (hadd : ∀ g g' a, Built g → add g a = .ok g' → Built g') {xs : List α} {g g' : FlowGraph}
    (hg : Built g) (h : xs.foldlM add g = .ok g') : Built g' := by
  induction xs generalizing g with
  | nil => exact Except.ok.inj h ▸ hg
  | cons a xs ih =>
    rw [List.foldlM_cons] at h
    cases ha : add g a with
    | error err => simp [ha, bind, Except.bind] at h
    | ok k =>
      rw [ha] at h
      exact ih (hadd g k a hg ha) h

theorem built_of_assemble {nodes : List FlowNode} {edges : List FlowEdge} {g : FlowGraph}
    (h : assemble nodes edges = .ok g) : Built g := by
  unfold assemble at h
  cases hn : nodes.foldlM addNode empty with
  | error err => simp [hn, bind, Except.bind] at h
  | ok k =>
    rw [hn] at h
    exact (Built.empty.foldlM (fun _ _ _ => .addNode) hn).foldlM (fun _ _ _ => .addEdge) h

/-- Two values are handed to one call of a routine that may call itself. One of them comes back. -/
def sample : FlowGraph :=
  let caller : Routine := { name := .text "main".toList }
  let callee : Routine := { name := .text "f".toList }
  { routines := [caller, callee]
    nodes := [
      { id := ['s'], routine := caller }, { id := ['t'], routine := caller },
      { id := ['p'], routine := callee }, { id := ['q'], routine := callee },
      { id := ['k'], routine := callee }, { id := ['l'], routine := callee }]
    edges := [
      { source := ['s'], target := ['p'], kind := .call, callSite := .text ['c'] },
      { source := ['t'], target := ['q'], kind := .call, callSite := .text ['c'] },
      { source := ['p'], target := ['p'], kind := .call, callSite := .text ['r'] },
      { source := ['p'], target := ['k'] },
      { source := ['q'], target := ['l'] },
      { source := ['k'], target := ['s'], kind := .return, callSite := .text ['c'] }] }

theorem built_sample : Built sample := by
  have h : assemble sample.nodes sample.edges = .ok sample := rfl
  exact built_of_assemble h

end Lockstep.FlowGraph
