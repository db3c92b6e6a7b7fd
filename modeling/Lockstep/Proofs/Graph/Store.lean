import Lockstep.Graph.Store
import Lockstep.Proofs.Graph.Built
/-!
The tables of a store and the graph they stand for. A store represents a graph if each of its
tables has, under every key, what the graph has for that key. An addition to the store and the same
addition to the graph are refused together, and the store represents the graph after both. What is
refused with an error of the graph is refused before anything is written.
-/

set_option autoImplicit false

namespace Lockstep

namespace Table

variable {κ ν : Type} {t : Table κ ν} {u : Table κ (List ν)} {f : ν → κ} {vs : List ν}

/-- The values of a list, in its order, each under its own key. -/
def Lists (t : Table κ ν) (f : ν → κ) (vs : List ν) : Prop := t = vs.map fun v => (f v, v)

theorem Lists.values (h : t.Lists f vs) : t.values = vs := by
  simp [Table.values, show t = _ from h, Function.comp_def]

variable [DecidableEq κ]

/-- Under every key the values of a list that have that key, in its order. -/
def Groups (u : Table κ (List ν)) (f : ν → κ) (vs : List ν) : Prop :=
  ∀ k, u.row k = vs.filter fun v => decide (f v = k)

theorem Lists.get? (h : t.Lists f vs) (k : κ) : t.get? k = vs.find? fun v => decide (f v = k) := by
  subst h
  induction vs with
  | nil => rfl
  | cons v vs ih =>
    by_cases hk : k = f v
    · simp [hk]
    · simp [hk, Ne.symm hk, ih]

theorem Lists.put (h : t.Lists f vs) {v : ν} (hnew : t.get? (f v) = none) :
    (t.put (f v) v).Lists f (vs ++ [v]) := by
  rw [Lists, put_of_get?_eq_none v hnew, show t = _ from h, List.map_append]
  rfl

theorem Groups.push (h : u.Groups f vs) (v : ν) : (u.push (f v) v).Groups f (vs ++ [v]) := by
  intro k
  rw [row_push, h k]
  by_cases hk : k = f v
  · simp [hk]
  · simp [hk, Ne.symm hk]

end Table

/-- A routine whose name and file are texts. -/
def Routine.Plain (r : Routine) : Prop := ∃ name file : Text, r = ⟨.text name, .text file⟩

theorem Json.key_eq_text {v : Json} {t : Text} : v.key = .text t ↔ v = .text t := by
  cases v with
  | float f => cases h : f.toInt? <;> simp [key, h]
  | _ => simp [key]

theorem Routine.Plain.name_scalar {r : Routine} (hr : r.Plain) : r.name.isScalar = true := by
  obtain ⟨name, file, rfl⟩ := hr
  rfl

theorem Routine.Plain.file_scalar {r : Routine} (hr : r.Plain) : r.file.isScalar = true := by
  obtain ⟨name, file, rfl⟩ := hr
  rfl

theorem Routine.agrees_iff {q r : Routine} : q.agrees r = true ↔ q.key = r.key := by
  simp [agrees, key]

theorem Routine.Plain.key_inj {q r : Routine} (hr : r.Plain) : q.key = r.key ↔ q = r := by
  obtain ⟨name, file, rfl⟩ := hr
  obtain ⟨n, f⟩ := q
  simp [Routine.key, Json.key_eq_text]

theorem Routine.Plain.agrees_iff {q r : Routine} (hr : r.Plain) : q.agrees r = true ↔ q = r :=
  Routine.agrees_iff.trans hr.key_inj

namespace GraphStore

/-! ### One addition -/

section

variable (s : GraphStore)

theorem perform_addRoutine (r : Routine) : perform (addRoutine r) s =
    if r.name.isScalar then
      match s.routineTable.get? r.name.key with
      | some known =>
        if known.agrees r then (.ok known, s)
        else (.error (.graph (.conflictingRoutine r.name)), s)
      | none => (.ok r, { s with routineTable := s.routineTable.put r.name.key r })
    else (.error (.notName r.name), s) := by
  unfold addRoutine named
  by_cases h : r.name.isScalar = true
  · cases hk : s.routineTable.get? r.name.key with
    | none => simp [h, hk, Except.map]
    | some known => simp [h, hk]
  · simp [h]

theorem perform_addNode (n : FlowNode) : perform (addNode n) s =
    if s.contains n.id then (.error (.graph (.duplicateNode n.id)), s)
    else match perform (addRoutine n.routine) s with
      | (.error f, s) => (.error f, s)
      | (.ok _, s) =>
        if n.routine.file.isScalar then
          (.ok n, { s with
            nodeTable := s.nodeTable.put n.id n
            members := s.members.push n.routine.key n })
        else
          (.error (.notName n.routine.file), { s with nodeTable := s.nodeTable.put n.id n }) := by
  unfold addNode
  by_cases hc : s.contains n.id = true
  · simp [hc]
  · rcases h : perform (addRoutine n.routine) s with ⟨f | r, t⟩
    · simp [hc, h]
    · by_cases hf : n.routine.file.isScalar = true <;> simp [hc, h, named, hf, Except.map]

theorem perform_addEdge (e : FlowEdge) : perform (addEdge e) s =
    match s.node e.source, s.node e.target with
    | .error f, _ => (.error f, s)
    | .ok _, .error f => (.error f, s)
    | .ok a, .ok b =>
      if e.kind.needsSite = true ∧ e.callSite.holds = false then
        (.error (.graph (.missingCallSite e.kind e.source e.target)), s)
      else if e.kind = .internal ∧ a.routine.agrees b.routine = false then
        (.error (.graph (.crossesRoutines e.source e.target a.routine.name b.routine.name)), s)
      else (.ok e, { s with
        leaving := s.leaving.push e.source e
        entering := s.entering.push e.target e
        edges := s.edges ++ [e] }) := by
  unfold addEdge
  cases ha : s.node e.source with
  | error f => simp [ha]
  | ok a =>
    cases hb : s.node e.target with
    | error f => simp [ha, hb]
    | ok b => simp [ha, hb, Except.map]

end

/-! ### Refusals -/

theorem addRoutine_refused {s t : GraphStore} {r : Routine} {f : Fault}
    (h : perform (addRoutine r) s = (.error f, t)) : t = s := by
  rw [perform_addRoutine] at h
  split at h
  · split at h
    · split at h
      · cases h
      · exact (Prod.mk.inj h).2.symm
    · cases h
  · exact (Prod.mk.inj h).2.symm

theorem addNode_refused {s t : GraphStore} {n : FlowNode} {e : GraphError}
    (h : perform (addNode n) s = (.error (.graph e), t)) : t = s := by
  rw [perform_addNode] at h
  by_cases hc : s.contains n.id = true
  · rw [if_pos hc] at h
    exact (Prod.mk.inj h).2.symm
  · rw [if_neg hc] at h
    rcases hr : perform (addRoutine n.routine) s with ⟨f | r, u⟩
    · rw [hr] at h
      rw [← (Prod.mk.inj h).2, addRoutine_refused hr]
    · -- once the routine is in, only its file can fail, and not as an error of the graph
      by_cases hf : n.routine.file.isScalar = true <;> simp [hr, hf] at h

/-- The file of a routine is looked into too late: the node is in by then, and in no routine. -/
example :
    let n : FlowNode := { id := ['x'], routine := ⟨.text ['f'], .list []⟩ }
    let s : GraphStore := (perform (addNode n) .empty).2
    (perform (addNode n) .empty).1 = .error (.notName (.list [])) ∧ s.allNodes = [n] ∧
      s.members = [] := by
  decide

theorem addEdge_refused {s t : GraphStore} {e : FlowEdge} {f : Fault}
    (h : perform (addEdge e) s = (.error f, t)) : t = s := by
  rw [perform_addEdge] at h
  split at h
  · exact (Prod.mk.inj h).2.symm
  · exact (Prod.mk.inj h).2.symm
  · split at h
    · exact (Prod.mk.inj h).2.symm
    · split at h
      · exact (Prod.mk.inj h).2.symm
      · cases h

theorem add_refused {s t : GraphStore} {p : GraphPart} {e : GraphError}
    (h : perform (add p) s = (.error (.graph e), t)) : t = s := by
  cases p with
  | routine r =>
    rcases hr : perform (addRoutine r) s with ⟨f | r', u⟩ <;> simp [add, hr, Except.map] at h
    rw [← h.2, addRoutine_refused hr]
  | node n =>
    rcases hn : perform (addNode n) s with ⟨f | n', u⟩ <;> simp [add, hn, Except.map] at h
    rw [h.1] at hn
    rw [← h.2, addNode_refused hn]
  | edge d =>
    rcases hd : perform (addEdge d) s with ⟨f | d', u⟩ <;> simp [add, hd, Except.map] at h
    rw [← h.2, addEdge_refused hd]

/-! ### Stores and graphs -/

theorem contains_of_node {s : GraphStore} {id : Text} {n : FlowNode} (h : s.node id = .ok n) :
    s.contains id = true := by
  unfold node at h
  cases hn : s.nodeTable.get? id with
  | none => simp [hn] at h
  | some m => rw [contains, hn, Option.isSome_some]

/-- Every table holds what the graph has. -/
structure Represents (s : GraphStore) (g : FlowGraph) : Prop where
  routineTable : s.routineTable.Lists (·.name.key) g.routines
  nodeTable : s.nodeTable.Lists (·.id) g.nodes
  members : s.members.Groups (·.routine.key) g.nodes
  leaving : s.leaving.Groups (·.source) g.edges
  entering : s.entering.Groups (·.target) g.edges
  edges : s.edges = g.edges
  plain : ∀ n ∈ g.nodes, n.routine.Plain

theorem represents_empty : empty.Represents .empty := by
  constructor <;> simp [empty, FlowGraph.empty, Table.Lists, Table.Groups]

section

variable {s : GraphStore} {g : FlowGraph} (h : s.Represents g)

include h

theorem Represents.graph_eq : s.graph = g := by
  rw [graph, allRoutines, allNodes, h.routineTable.values, h.nodeTable.values, h.edges]

theorem Represents.findRoutine? (name : Json) :
    s.routineTable.get? name.key = g.findRoutine? name := by
  simp [h.routineTable.get?, FlowGraph.findRoutine?, beq_eq_decide]

theorem Represents.findNode? (id : Text) : s.nodeTable.get? id = g.findNode? id := by
  simp [h.nodeTable.get?, FlowGraph.findNode?, beq_eq_decide]

theorem Represents.contains (id : Text) : s.contains id = g.contains id := by
  rw [GraphStore.contains, h.findNode?, FlowGraph.contains]

theorem Represents.node (id : Text) : s.node id = (g.node id).mapError .graph := by
  rw [GraphStore.node, h.findNode?, FlowGraph.node]
  cases g.findNode? id <;> rfl

theorem Represents.agrees_node {id : Text} {n : FlowNode} (hn : s.node id = .ok n) {r : Routine} :
    r.agrees n.routine = false ↔ r ≠ n.routine := by
  have hmem : n ∈ g.nodes := by
    rw [h.node] at hn
    cases hg : g.node id with
    | error e => simp [hg, Except.mapError] at hn
    | ok m =>
      obtain rfl : m = n := by simpa [hg, Except.mapError] using hn
      exact (FlowGraph.node_eq_ok hg).1
  rw [← Bool.not_eq_true, (h.plain n hmem).agrees_iff]

theorem Represents.node_eq_ok (hg : g.Valid) {n : FlowNode} (hn : n ∈ g.nodes) :
    s.node n.id = .ok n := by
  rw [GraphStore.node, h.findNode?, hg.findNode?_eq_some.mpr ⟨hn, rfl⟩]

theorem Represents.routine_eq_ok (hg : g.Valid) {n : FlowNode} (hn : n ∈ g.nodes) :
    s.routine n.routine.name = .ok n.routine := by
  rw [GraphStore.routine, named, if_pos (h.plain n hn).name_scalar, h.findRoutine?,
    hg.findRoutine?_name (hg.routine_mem n hn)]
  rfl

theorem Represents.nodesIn {r : Routine} (hname : r.name.isScalar = true)
    (hfile : r.file.isScalar = true) : s.nodesIn r = .ok (g.nodesIn r) := by
  have hrow : s.members.row r.key = g.nodesIn r := by
    rw [h.members r.key, FlowGraph.nodesIn]
    refine List.filter_congr fun n hn => ?_
    have hkey : n.routine.key = r.key ↔ n.routine = r :=
      eq_comm.trans ((h.plain n hn).key_inj.trans eq_comm)
    simp [hkey, beq_eq_decide]
  rw [GraphStore.nodesIn, named, named, if_pos hname, if_pos hfile, ← hrow]
  rfl

theorem Represents.outEdges (id : Text) : s.outEdges id = g.outEdges id := by
  simp [GraphStore.outEdges, h.leaving id, FlowGraph.outEdges, beq_eq_decide]

theorem Represents.inEdges (id : Text) : s.inEdges id = g.inEdges id := by
  simp [GraphStore.inEdges, h.entering id, FlowGraph.inEdges, beq_eq_decide]

theorem Represents.addRoutine {r : Routine} (hr : r.Plain) :
    (∃ e, g.addRoutine r = .error e ∧ perform (addRoutine r) s = (.error (.graph e), s)) ∨
    ∃ g' s', g.addRoutine r = .ok (r, g') ∧ perform (addRoutine r) s = (.ok r, s') ∧
      s'.Represents g' := by
  rw [perform_addRoutine, if_pos hr.name_scalar, h.findRoutine?, FlowGraph.addRoutine]
  cases hk : g.findRoutine? r.name with
  | none =>
    have hnew := (h.findRoutine? r.name).trans hk
    exact Or.inr ⟨_, _, rfl, rfl, { h with routineTable := h.routineTable.put hnew }⟩
  | some known =>
    by_cases ha : known.agrees r = true
    · have hsame := hr.agrees_iff.mp ha
      subst hsame
      exact Or.inr ⟨g, s, if_pos ha, if_pos ha, h⟩
    · exact Or.inl ⟨_, if_neg ha, if_neg ha⟩

theorem Represents.addNode {n : FlowNode} (hn : n.routine.Plain) :
    (∃ e, g.addNode n = .error e ∧ perform (addNode n) s = (.error (.graph e), s)) ∨
    ∃ g' s', g.addNode n = .ok g' ∧ perform (addNode n) s = (.ok n, s') ∧ s'.Represents g' := by
  rw [perform_addNode, h.contains, FlowGraph.addNode]
  by_cases hc : g.contains n.id = true
  · exact Or.inl ⟨_, if_pos hc, if_pos hc⟩
  · rw [if_neg hc, if_neg hc]
    obtain ⟨e, hg, hs⟩ | ⟨g', s', hg, hs, h'⟩ := h.addRoutine hn
    · exact Or.inl ⟨e, by rw [hg], by rw [hs]⟩
    · have hnew : s'.nodeTable.get? n.id = none := by
        rw [h'.findNode?, FlowGraph.findNode?, (FlowGraph.addRoutine_frame hg).1]
        simpa [FlowGraph.contains, FlowGraph.findNode?] using hc
      refine Or.inr ⟨{ g' with nodes := g'.nodes ++ [n] }, { s' with
        nodeTable := s'.nodeTable.put n.id n
        members := s'.members.push n.routine.key n }, ?_, ?_, { h' with
          nodeTable := h'.nodeTable.put hnew
          members := h'.members.push n
          plain := ?_ }⟩
      · rw [hg]
      · rw [hs]
        exact if_pos hn.file_scalar
      · simpa [or_imp, forall_and] using ⟨h'.plain, hn⟩

theorem Represents.addEdge (e : FlowEdge) :
    (∃ err, g.addEdge e = .error err ∧ perform (addEdge e) s = (.error (.graph err), s)) ∨
    ∃ g' s', g.addEdge e = .ok g' ∧ perform (addEdge e) s = (.ok e, s') ∧ s'.Represents g' := by
  rw [perform_addEdge, h.node, h.node, FlowGraph.addEdge]
  cases ha : g.node e.source with
  | error err => exact Or.inl ⟨err, rfl, rfl⟩
  | ok a =>
    cases hb : g.node e.target with
    | error err => exact Or.inl ⟨err, rfl, rfl⟩
    | ok b =>
      have hagrees : a.routine.agrees b.routine = false ↔ a.routine ≠ b.routine :=
        h.agrees_node ((h.node e.target).trans (by rw [hb]; rfl))
      have hsite : (e.kind.needsSite && !e.callSite.holds) = true ↔
          e.kind.needsSite = true ∧ e.callSite.holds = false := by simp
      simp only [Except.mapError, hagrees, hsite]
      by_cases hmissing : e.kind.needsSite = true ∧ e.callSite.holds = false
      · exact Or.inl ⟨_, if_pos hmissing, if_pos hmissing⟩
      · rw [if_neg hmissing, if_neg hmissing]
        by_cases hcross : e.kind = .internal ∧ a.routine ≠ b.routine
        · exact Or.inl ⟨_, if_pos hcross, if_pos hcross⟩
        · exact Or.inr ⟨_, _, if_neg hcross, if_neg hcross, { h with
            leaving := h.leaving.push e
            entering := h.entering.push e
            edges := by rw [h.edges] }⟩

end

end GraphStore
end Lockstep
