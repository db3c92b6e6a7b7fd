import Lockstep.Proofs.Graph.Growth
import Lockstep.Proofs.Graph.Store
/-!
Sequences of additions. Whatever is added to an empty store, whether it is refused or not, the
tables of the store represent a graph that additions have built, and the nodes and edges in it are
those that were not refused, in the order of their addition. So the tables agree with one another,
and nothing in them breaks the rules of a graph.
-/

set_option autoImplicit false

namespace Lockstep

/-- A part that uses nothing but texts for the names and files of routines. -/
def GraphPart.Plain : GraphPart → Prop
  | .routine r => r.Plain
  | .node n => n.routine.Plain
  | .edge _ => True

def GraphPart.nodes : GraphPart → List FlowNode
  | .node n => [n]
  | _ => []

def GraphPart.edges : GraphPart → List FlowEdge
  | .edge e => [e]
  | _ => []

namespace FlowGraph

variable {g g' : FlowGraph}

def add (g : FlowGraph) : GraphPart → Except GraphError FlowGraph
  | .routine r => (g.addRoutine r).map (·.2)
  | .node n => g.addNode n
  | .edge e => g.addEdge e

theorem adds_of_add {p : GraphPart} (h : g.add p = .ok g') : g.Adds g' := by
  cases p with
  | routine r =>
    rcases hr : g.addRoutine r with e | ⟨r', k⟩ <;> simp [add, hr, Except.map] at h
    exact .routine (h ▸ hr)
  | node n => exact .node h
  | edge e => exact .edge h

theorem addRoutine_plain {r r' : Routine} (hr : r.Plain) (h : g.addRoutine r = .ok (r', g')) :
    r' = r := by
  unfold addRoutine at h
  cases hk : g.findRoutine? r.name with
  | none => exact (by simpa [hk] using h : r = r' ∧ _).1.symm
  | some known =>
    by_cases ha : known.agrees r = true
    · have hknown : known = r' ∧ g = g' := by simpa [hk, ha] using h
      exact hknown.1.symm.trans (hr.agrees_iff.mp ha)
    · simp [hk, ha] at h

theorem add_frame {p : GraphPart} (hp : p.Plain) (h : g.add p = .ok g') :
    g'.nodes = g.nodes ++ p.nodes ∧ g'.edges = g.edges ++ p.edges := by
  cases p with
  | routine r =>
    rcases hr : g.addRoutine r with e | ⟨r', k⟩ <;> simp [add, hr, Except.map] at h
    simpa [GraphPart.nodes, GraphPart.edges] using h ▸ addRoutine_frame hr
  | node n =>
    obtain ⟨r, k, -, hr, rfl⟩ := addNode_eq_ok h
    obtain ⟨hnodes, hedges⟩ := addRoutine_frame hr
    simp [GraphPart.nodes, GraphPart.edges, hnodes, hedges, addRoutine_plain hp hr]
  | edge e =>
    obtain ⟨a, b, -, -, -, -, rfl⟩ := addEdge_eq_ok h
    simp [GraphPart.nodes, GraphPart.edges]

end FlowGraph

namespace GraphStore

variable {s : GraphStore} {g : FlowGraph} {p : GraphPart}

/-- An addition to a store is refused where the same addition to its graph is, with the same
error, and else the store represents the graph after both. -/
theorem Represents.add (h : s.Represents g) (hp : p.Plain) :
    (∃ e, g.add p = .error e ∧ perform (add p) s = (.error (.graph e), s)) ∨
    ∃ g' s', g.add p = .ok g' ∧ perform (add p) s = (.ok p, s') ∧ s'.Represents g' := by
  cases p with
  | routine r =>
    obtain ⟨e, hg, hs⟩ | ⟨g', s', hg, hs, h'⟩ := h.addRoutine hp
    · exact Or.inl ⟨e, by simp [FlowGraph.add, hg, Except.map], by simp [add, hs, Except.map]⟩
    · exact Or.inr ⟨g', s', by simp [FlowGraph.add, hg, Except.map],
        by simp [add, hs, Except.map], h'⟩
  | node n =>
    obtain ⟨e, hg, hs⟩ | ⟨g', s', hg, hs, h'⟩ := h.addNode hp
    · exact Or.inl ⟨e, hg, by simp [add, hs, Except.map]⟩
    · exact Or.inr ⟨g', s', hg, by simp [add, hs, Except.map], h'⟩
  | edge d =>
    obtain ⟨e, hg, hs⟩ | ⟨g', s', hg, hs, h'⟩ := h.addEdge d
    · exact Or.inl ⟨e, hg, by simp [add, hs, Except.map]⟩
    · exact Or.inr ⟨g', s', hg, by simp [add, hs, Except.map], h'⟩

/-- What may be added: a routine if its name stands for no other one, a node under a new identifier
with such a routine, and an edge between nodes if it has a call site where one is needed and stays
in its routine where it has to. -/
def Accepts (s : GraphStore) : GraphPart → Prop
  | .routine r => ∀ q, s.routine r.name = .ok q → q = r
  | .node n => s.contains n.id = false ∧ ∀ q, s.routine n.routine.name = .ok q → q = n.routine
  | .edge e => ∃ a b, s.node e.source = .ok a ∧ s.node e.target = .ok b ∧
      (e.kind = .call ∨ e.kind = .return → e.callSite.holds = true) ∧
      (e.kind = .internal → a.routine = b.routine)

theorem addRoutine_ok_iff {r : Routine} (hr : r.Plain) :
    (perform (addRoutine r) s).1 = .ok r ↔ ∀ q, s.routine r.name = .ok q → q = r := by
  rw [perform_addRoutine, if_pos hr.name_scalar, routine, named, if_pos hr.name_scalar]
  cases hk : s.routineTable.get? r.name.key with
  | none => simp [bind, Except.bind]
  | some known =>
    by_cases hknown : known = r
    · subst hknown
      simp [bind, Except.bind, hr.agrees_iff]
    · simp [bind, Except.bind, hr.agrees_iff, hknown]

theorem Represents.addNode_ok_iff (h : s.Represents g) {n : FlowNode} (hn : n.routine.Plain) :
    (perform (GraphStore.addNode n) s).1 = .ok n ↔
      s.contains n.id = false ∧ ∀ q, s.routine n.routine.name = .ok q → q = n.routine := by
  rw [← addRoutine_ok_iff hn, perform_addNode]
  cases hc : s.contains n.id with
  | true => simp
  | false =>
    obtain ⟨e, -, hs⟩ | ⟨-, t, -, hs, -⟩ := h.addRoutine hn
    · simp [hs]
    · simp [hs, hn.file_scalar]

theorem Represents.addEdge_ok_iff (h : s.Represents g) (e : FlowEdge) :
    (perform (GraphStore.addEdge e) s).1 = .ok e ↔ s.Accepts (.edge e) := by
  have hneeds : e.kind.needsSite = true ↔ e.kind = .call ∨ e.kind = .return := by
    cases e.kind <;> decide
  rw [perform_addEdge, Accepts]
  cases ha : s.node e.source with
  | error f => simp
  | ok a =>
    cases hb : s.node e.target with
    | error f => simp
    | ok b =>
      simp only [h.agrees_node hb]
      by_cases hsite : e.kind.needsSite = true ∧ e.callSite.holds = false
      · simp [hsite, hneeds.mp hsite.1]
      · rw [if_neg hsite]
        have hholds : e.kind = .call ∨ e.kind = .return → e.callSite.holds = true := by
          simpa [hneeds] using hsite
        by_cases hcross : e.kind = .internal ∧ a.routine ≠ b.routine
        · simp [hcross]
        · rw [if_neg hcross]
          have hstays : e.kind = .internal → a.routine = b.routine := by simpa using hcross
          exact iff_of_true rfl ⟨a, b, rfl, rfl, hholds, hstays⟩

theorem Represents.add_ok_iff (h : s.Represents g) (hp : p.Plain) :
    (perform (GraphStore.add p) s).1 = .ok p ↔ s.Accepts p := by
  have hmap {α : Type} {x : Except Fault α} {f : α → GraphPart} (hf : Function.Injective f)
      {a : α} : x.map f = .ok (f a) ↔ x = .ok a := by
    cases x <;> simp [Except.map, hf.eq_iff]
  cases p with
  | routine r =>
    rw [GraphStore.add, perform_map, hmap fun _ _ => GraphPart.routine.inj]
    exact addRoutine_ok_iff hp
  | node n =>
    rw [GraphStore.add, perform_map, hmap fun _ _ => GraphPart.node.inj]
    exact h.addNode_ok_iff hp
  | edge e =>
    rw [GraphStore.add, perform_map, hmap fun _ _ => GraphPart.edge.inj]
    exact h.addEdge_ok_iff e

/-- A part whose names and files are texts is taken or refused by the rules of a graph. -/
theorem Represents.outcome (h : s.Represents g) (hp : p.Plain) :
    (s.Accepts p ∧ (perform (GraphStore.add p) s).1 = .ok p) ∨
    (¬ s.Accepts p ∧ ∃ e, perform (GraphStore.add p) s = (.error (.graph e), s)) := by
  obtain ⟨e, -, hs⟩ | ⟨-, t, -, hs, -⟩ := h.add hp
  · exact Or.inr ⟨fun haccepts => by simpa [hs] using (h.add_ok_iff hp).mpr haccepts, e, hs⟩
  · exact Or.inl ⟨(h.add_ok_iff hp).mp (by rw [hs]), by rw [hs]⟩

/-- The parts that were not refused. -/
def accepted (ps : List GraphPart) (answers : List (Except Fault GraphPart)) : List GraphPart :=
  ((ps.zip answers).filter fun a => a.2.isOk).map (·.1)

@[simp] theorem accepted_nil : accepted [] [] = [] := rfl

@[simp] theorem accepted_error (p : GraphPart) (ps : List GraphPart) (f : Fault)
    (answers : List (Except Fault GraphPart)) :
    accepted (p :: ps) (.error f :: answers) = accepted ps answers := rfl

@[simp] theorem accepted_ok (p a : GraphPart) (ps : List GraphPart)
    (answers : List (Except Fault GraphPart)) :
    accepted (p :: ps) (.ok a :: answers) = p :: accepted ps answers := rfl

theorem Represents.addAll {ps : List GraphPart} (hps : ∀ p ∈ ps, p.Plain) (h : s.Represents g) :
    ∃ g', (addAll ps s).2.Represents g' ∧ g.Grows g' ∧
      g'.nodes = g.nodes ++ (accepted ps (addAll ps s).1).flatMap GraphPart.nodes ∧
      g'.edges = g.edges ++ (accepted ps (addAll ps s).1).flatMap GraphPart.edges := by
  induction ps generalizing s g with
  | nil => exact ⟨g, h, .refl, by simp [GraphStore.addAll], by simp [GraphStore.addAll]⟩
  | cons p ps ih =>
    obtain ⟨hp, hps⟩ := List.forall_mem_cons.mp hps
    obtain ⟨e, -, hs⟩ | ⟨k, t, hg, hs, h'⟩ := h.add hp
    · simpa [GraphStore.addAll, hs] using ih hps h
    · obtain ⟨g', hrep, hgrows, hnodes, hedges⟩ := ih hps h'
      obtain ⟨hn, he⟩ := FlowGraph.add_frame hp hg
      refine ⟨g', ?_, .head (FlowGraph.adds_of_add hg) hgrows, ?_, ?_⟩
      · simpa [GraphStore.addAll, hs] using hrep
      · simp [GraphStore.addAll, hs, hnodes, hn]
      · simp [GraphStore.addAll, hs, hedges, he]

/-- The tables agree with one another and keep the rules of a graph. -/
structure Coherent (s : GraphStore) : Prop where
  ids : (s.allNodes.map (·.id)).Nodup
  names : (s.allRoutines.map (·.name)).Nodup
  registered : ∀ n ∈ s.allNodes, s.routine n.routine.name = .ok n.routine
  nodesIn : ∀ r : Routine, r.name.isScalar = true → r.file.isScalar = true →
    s.nodesIn r = .ok (s.allNodes.filter (·.routine == r))
  ends : ∀ e ∈ s.edges, s.contains e.source = true ∧ s.contains e.target = true
  internal : ∀ e ∈ s.edges, e.kind = .internal →
    ∃ a b, s.node e.source = .ok a ∧ s.node e.target = .ok b ∧ a.routine = b.routine
  sites : ∀ e ∈ s.edges, e.kind = .call ∨ e.kind = .return → e.callSite.holds = true
  outEdges : ∀ id, s.outEdges id = s.edges.filter (·.source == id)
  inEdges : ∀ id, s.inEdges id = s.edges.filter (·.target == id)

theorem Represents.coherent (h : s.Represents g) (hg : g.Valid) : s.Coherent where
  ids := by
    rw [allNodes, h.nodeTable.values]
    exact hg.ids
  names := by
    rw [allRoutines, h.routineTable.values]
    have hkeys := hg.names
    rw [← Function.comp_def Json.key, ← List.map_map] at hkeys
    exact hkeys.of_map _
  registered n hn := by
    rw [allNodes, h.nodeTable.values] at hn
    exact h.routine_eq_ok hg hn
  nodesIn r hname hfile := by
    rw [h.nodesIn hname hfile, allNodes, h.nodeTable.values, FlowGraph.nodesIn]
  ends e he := by
    rw [h.edges] at he
    obtain ⟨a, ha, hsource⟩ := hg.source_mem e he
    obtain ⟨b, hb, htarget⟩ := hg.target_mem e he
    exact ⟨contains_of_node (hsource ▸ h.node_eq_ok hg ha),
      contains_of_node (htarget ▸ h.node_eq_ok hg hb)⟩
  internal e he hk := by
    rw [h.edges] at he
    obtain ⟨a, ha, hsource⟩ := hg.source_mem e he
    obtain ⟨b, hb, htarget⟩ := hg.target_mem e he
    exact ⟨a, b, hsource ▸ h.node_eq_ok hg ha, htarget ▸ h.node_eq_ok hg hb,
      hg.internal e he hk a ha b hb hsource htarget⟩
  sites e he hk := by
    rw [h.edges] at he
    exact hg.site e he (by rcases hk with hk | hk <;> rw [hk] <;> rfl)
  outEdges id := by rw [h.outEdges, h.edges, FlowGraph.outEdges]
  inEdges id := by rw [h.inEdges, h.edges, FlowGraph.inEdges]

/-- The graph that the tables hold after any additions is one that additions have built. -/
theorem built_graph {ps : List GraphPart} (hps : ∀ p ∈ ps, p.Plain) :
    (addAll ps .empty).2.graph.Built := by
  obtain ⟨g, h, hgrows, -⟩ := represents_empty.addAll hps
  rw [h.graph_eq]
  exact FlowGraph.Built.empty.grows hgrows

/-- Whatever is added, refused or not, the tables agree and list what was not refused in the order
of its addition. What comes next is refused if it would break the rules of a graph and only then,
and a refusal leaves the tables as they are. -/
theorem addAll_coherent {ps : List GraphPart} (hps : ∀ p ∈ ps, p.Plain)
    {answers : List (Except Fault GraphPart)} {s : GraphStore}
    (hs : addAll ps .empty = (answers, s)) :
    s.Coherent ∧
    s.allNodes = (accepted ps answers).flatMap GraphPart.nodes ∧
    s.edges = (accepted ps answers).flatMap GraphPart.edges ∧
    (∀ p : GraphPart, p.Plain → (s.Accepts p ∧ (perform (add p) s).1 = .ok p) ∨
      (¬ s.Accepts p ∧ ∃ e, perform (add p) s = (.error (.graph e), s))) ∧
    ∀ p e t, perform (add p) s = (.error (.graph e), t) → t = s := by
  obtain ⟨g, h, hgrows, hnodes, hedges⟩ := represents_empty.addAll hps
  rw [hs] at h hnodes hedges
  have hg : g.Built := FlowGraph.Built.empty.grows hgrows
  refine ⟨h.coherent hg.valid, ?_, ?_, fun _ => h.outcome, fun _ _ _ => add_refused⟩
  · rw [allNodes, h.nodeTable.values, hnodes]
    rfl
  · rw [h.edges, hedges]
    rfl

/-- Two routines with a value each, a value handed from the one to the other, and additions in
between that are refused for every reason there is. -/
def sampleParts : List GraphPart :=
  let f : Routine := ⟨.text ['f'], .text ['c']⟩
  let g : Routine := ⟨.text ['g'], .text []⟩
  [.routine f, .node { id := ['x'], routine := f },
    .node { id := ['x'], routine := g },
    .routine ⟨.text ['f'], .text []⟩,
    .node { id := ['z'], routine := ⟨.text ['f'], .text []⟩ },
    .node { id := ['y'], routine := g },
    .edge { source := ['x'], target := ['z'] },
    .edge { source := ['x'], target := ['y'] },
    .edge { source := ['x'], target := ['y'], kind := .call, callSite := .text [] },
    .edge { source := ['x'], target := ['y'], kind := .call, callSite := .text ['s'] },
    .edge { source := ['x'], target := ['x'] }]

theorem addAll_coherent_sample :
    let s := (addAll sampleParts .empty).2
    (∀ p ∈ sampleParts, p.Plain) ∧
    (addAll sampleParts .empty).1.map Except.isOk =
      [true, true, false, false, false, true, false, false, false, true, true] ∧
    s.Coherent ∧ s.allNodes.map (·.id) = [['x'], ['y']] ∧
    s.edges.map (·.target) = [['y'], ['x']] ∧
    s.Accepts (.edge { source := ['y'], target := ['x'], kind := .jump }) ∧
    ∃ e, perform (add (.edge { source := ['y'], target := ['x'] })) s = (.error (.graph e), s) := by
  intro s
  have hplain : ∀ p ∈ sampleParts, p.Plain := by
    simp [sampleParts, GraphPart.Plain, Routine.Plain]
  obtain ⟨hcoherent, hnodes, hedges, houtcome, -⟩ := addAll_coherent hplain (Prod.eta _).symm
  refine ⟨hplain, by decide, hcoherent, ?_, ?_, ?_, ?_⟩
  · rw [hnodes]
    decide
  · rw [hedges]
    decide
  · obtain ⟨haccepts, -⟩ | ⟨-, e, he⟩ := houtcome (.edge ⟨['y'], ['x'], .jump, .null⟩) trivial
    · exact haccepts
    · exact absurd (congrArg (·.1.toOption) he) (by decide : some _ ≠ none)
  · obtain ⟨-, hok⟩ | ⟨-, hrefused⟩ := houtcome (.edge ⟨['y'], ['x'], .internal, .null⟩) trivial
    · exact absurd hok (by decide)
    · exact hrefused

end GraphStore
end Lockstep
