import Lockstep.Proofs.Graph.Coherence
import Lockstep.Proofs.Graph.Document
/-!
Writing a graph as a document and reading it back. Every graph that additions have built comes back
as it was, and so does every graph that a document was read to: what is written of it is read to the
same graph, and written the same again.
-/

set_option autoImplicit false

namespace Lockstep

namespace FlowGraph

variable {g g' : FlowGraph}

/-- Elements that each come to the next state of what has been read come to the last one together. -/
theorem readAll_map {α : Type} {step : FlowGraph → Json → Checked FlowGraph} {write : α → Json}
    {todo : List α} (state : List α → FlowGraph) (done : List α)
    (hstep : ∀ before a after, done ++ todo = before ++ a :: after →
      step (state before) (write a) = .ok (state (before ++ [a]))) :
    readAll step (state done) (todo.map write) = .ok (state (done ++ todo)) := by
  induction todo generalizing done with
  | nil => simp [readAll]
  | cons a todo ih =>
    rw [List.map_cons, readAll_cons, hstep done a todo rfl]
    have hnext : done ++ a :: todo = done ++ [a] ++ todo := by simp
    rw [hnext] at hstep ⊢
    exact ih (done ++ [a]) hstep

theorem ne_of_nodup_map {α β : Type} {f : α → β} {xs before after : List α} {a : α}
    (h : (xs.map f).Nodup) (heq : xs = before ++ a :: after) : ∀ b ∈ before, f b ≠ f a := by
  subst heq
  rw [List.map_append, List.nodup_append] at h
  exact fun b hb => h.2.2 _ (List.mem_map_of_mem hb) _ (by simp)

/-! ### Elements as they are written -/

theorem readRoutine_routineJson {r r' : Routine} (hname : r.name.isScalar = true)
    (h : g.addRoutine r = .ok (r', g')) : readRoutine g (routineJson r) = .ok g' := by
  simp only [readRoutine, bind_eq_ok, graphStep_eq_ok]
  exact ⟨_, rfl, _, rfl, (), nameable_eq_ok.mpr hname, _, h, rfl⟩

theorem readNode_nodeJson (hg : g.Valid) {n : FlowNode} (hr : n.routine ∈ g.routines)
    (hname : n.routine.name.isScalar = true) (hfile : n.routine.file.isScalar = true)
    (h : g.addNode n = .ok g') : readNode g (nodeJson n) = .ok g' := by
  have hfind : g.findRoutine? n.routine.name = some n.routine := hg.findRoutine?_name hr
  simp only [readNode, bind_eq_ok, graphStep_eq_ok]
  refine ⟨_, rfl, _, rfl, (), nameable_eq_ok.mpr hname, (n.routine, g), ?_, _, rfl, n.kind,
    nodeKindOf_eq_ok.mpr rfl, n.argIndex, rfl, n.line, rfl, g', h, (), nameable_eq_ok.mpr hfile, rfl⟩
  rw [hfind]

theorem readEdge_edgeJson {e : FlowEdge} (h : g.addEdge e = .ok g') :
    readEdge g (edgeJson e) = .ok g' := by
  have hkind : edgeKindOf (.text e.kind.word) = .ok e.kind := by
    simp [edgeKindOf, Json.asText?, EdgeKind.ofWord?_word]
  simp only [readEdge, bind_eq_ok, graphStep_eq_ok]
  exact ⟨_, rfl, _, rfl, _, rfl, e.kind, hkind, h⟩

/-! ### Additions in the order of a graph -/

theorem addRoutine_new {r : Routine} (h : ∀ s ∈ g.routines, s.name.key ≠ r.name.key) :
    g.addRoutine r = .ok (r, { g with routines := g.routines ++ [r] }) := by
  have hfind : g.findRoutine? r.name = none := by simpa [findRoutine?] using h
  simp [FlowGraph.addRoutine, hfind]

theorem Valid.addNode_new (hg : g.Valid) {n : FlowNode} (hr : n.routine ∈ g.routines)
    (hnew : ∀ m ∈ g.nodes, m.id ≠ n.id) :
    g.addNode n = .ok { g with nodes := g.nodes ++ [n] } := by
  have hcontains : g.contains n.id = false := by
    simp [contains, findNode?_eq_none.mpr hnew]
  simp [FlowGraph.addNode, hcontains, hg.addRoutine_mem hr]

theorem Valid.addEdge_new (hg : g.Valid) {e : FlowEdge} {a b : FlowNode}
    (ha : a ∈ g.nodes ∧ a.id = e.source) (hb : b ∈ g.nodes ∧ b.id = e.target)
    (hsite : e.kind.needsSite = true → e.callSite.holds = true)
    (hinternal : e.kind = .internal → a.routine = b.routine) :
    g.addEdge e = .ok { g with edges := g.edges ++ [e] } := by
  have hsource : g.node e.source = .ok a := by rw [node, hg.findNode?_eq_some.mpr ha]
  have htarget : g.node e.target = .ok b := by rw [node, hg.findNode?_eq_some.mpr hb]
  have hneeds : (e.kind.needsSite && !e.callSite.holds) = false := by simpa using hsite
  have hcross : ¬ (e.kind = .internal ∧ a.routine ≠ b.routine) := by simpa using hinternal
  simp only [FlowGraph.addEdge, hsource, htarget, hneeds, if_neg hcross]
  rfl

theorem Valid.nodes_first (hg : g.Valid) {ns : List FlowNode} (h : ns <+: g.nodes) :
    Valid ⟨g.routines, ns, []⟩ where
  names := hg.names
  ids := (h.sublist.map _).nodup hg.ids
  routine_mem n hn := hg.routine_mem n (h.subset hn)
  source_mem _ he := nomatch he
  target_mem _ he := nomatch he
  site _ he := nomatch he
  internal _ he := nomatch he

theorem Valid.edges_first (hg : g.Valid) {es : List FlowEdge} (h : es <+: g.edges) :
    Valid ⟨g.routines, g.nodes, es⟩ where
  names := hg.names
  ids := hg.ids
  routine_mem := hg.routine_mem
  source_mem e he := hg.source_mem e (h.subset he)
  target_mem e he := hg.target_mem e (h.subset he)
  site e he := hg.site e (h.subset he)
  internal e he := hg.internal e (h.subset he)

/-! ### Reading back -/

theorem readAll_routines (hg : g.Legible) :
    readAll readRoutine empty (g.routines.map routineJson) = .ok ⟨g.routines, [], []⟩ := by
  refine readAll_map (fun rs => ⟨rs, [], []⟩) [] fun before r after heq => ?_
  have heq : g.routines = before ++ r :: after := heq
  have hr : r ∈ g.routines := by simp [heq]
  have hnew := ne_of_nodup_map hg.built.valid.names heq
  exact readRoutine_routineJson (hg.name r hr) (addRoutine_new hnew)

theorem readAll_nodes (hg : g.Legible) :
    readAll readNode ⟨g.routines, [], []⟩ (g.nodes.map nodeJson) = .ok ⟨g.routines, g.nodes, []⟩ := by
  refine readAll_map (fun ns => ⟨g.routines, ns, []⟩) [] fun before n after heq => ?_
  have heq : g.nodes = before ++ n :: after := heq
  have hn : n ∈ g.nodes := by simp [heq]
  have hr : n.routine ∈ g.routines := hg.built.valid.routine_mem n hn
  have hfirst := hg.built.valid.nodes_first (heq ▸ List.prefix_append before (n :: after))
  have hnew := ne_of_nodup_map hg.built.valid.ids heq
  exact readNode_nodeJson hfirst hr (hg.name _ hr) (hg.file n hn) (hfirst.addNode_new hr hnew)

theorem readAll_edges (hg : g.Legible) :
    readAll readEdge ⟨g.routines, g.nodes, []⟩ (g.edges.map edgeJson) = .ok g := by
  refine readAll_map (fun es => ⟨g.routines, g.nodes, es⟩) [] fun before e after heq => ?_
  have heq : g.edges = before ++ e :: after := heq
  have he : e ∈ g.edges := by simp [heq]
  have hvalid := hg.built.valid
  have hfirst := hvalid.edges_first (heq ▸ List.prefix_append before (e :: after))
  obtain ⟨a, ha, hsource⟩ := hvalid.source_mem e he
  obtain ⟨b, hb, htarget⟩ := hvalid.target_mem e he
  exact readEdge_edgeJson (hfirst.addEdge_new ⟨ha, hsource⟩ ⟨hb, htarget⟩ (hvalid.site e he)
    fun hk => hvalid.internal e he hk a ha b hb hsource htarget)

theorem Legible.ofJson_toJson (hg : g.Legible) : ofJson g.toJson = .ok g := by
  simp only [toJson, ofJson, bind_eq_ok]
  exact ⟨_, rfl, _, readAll_routines hg, _, rfl, _, readAll_nodes hg, _, rfl, readAll_edges hg⟩

/-! ### Graphs that additions have built -/

theorem Legible.add (hg : g.Legible) {p : GraphPart} (hp : p.Plain) (h : g.add p = .ok g') :
    g'.Legible := by
  cases p with
  | routine r =>
    rcases hr : g.addRoutine r with e | ⟨r', k⟩ <;> simp [FlowGraph.add, hr, Except.map] at h
    exact hg.addRoutine hp.name_scalar (h ▸ hr)
  | node n =>
    obtain ⟨r, k, -, hr, hg'⟩ := addNode_eq_ok h
    have hk : k.Legible := hg.addRoutine hp.name_scalar hr
    have hfile : r.file.isScalar = true := addRoutine_plain hp hr ▸ hp.file_scalar
    refine ⟨hg.built.addNode h, hg' ▸ hk.name, hg' ▸ ?_⟩
    simpa [or_imp, forall_and] using ⟨hk.file, hfile⟩
  | edge e => exact hg.addEdge h

end FlowGraph

namespace GraphStore

open FlowGraph (ofJson Legible legible_empty)

/-- The tables of a store have what a graph has, in the same order. -/
structure Shows (s : GraphStore) (g : FlowGraph) : Prop where
  routines : s.allRoutines = g.routines
  nodes : s.allNodes = g.nodes
  edges : s.edges = g.edges
  nodesIn : ∀ r : Routine, r.name.isScalar = true → r.file.isScalar = true →
    s.nodesIn r = .ok (g.nodesIn r)
  outEdges : ∀ id, s.outEdges id = g.outEdges id
  inEdges : ∀ id, s.inEdges id = g.inEdges id

variable {s : GraphStore} {g : FlowGraph}

theorem Represents.shows (h : s.Represents g) : s.Shows g where
  routines := h.routineTable.values
  nodes := h.nodeTable.values
  edges := h.edges
  nodesIn _ := h.nodesIn
  outEdges := h.outEdges
  inEdges := h.inEdges

theorem Represents.addAll_legible {ps : List GraphPart} (hps : ∀ p ∈ ps, p.Plain)
    (h : s.Represents g) (hg : g.Legible) :
    ∃ g', (GraphStore.addAll ps s).2.Represents g' ∧ g'.Legible := by
  induction ps generalizing s g with
  | nil => exact ⟨g, h, hg⟩
  | cons p ps ih =>
    obtain ⟨hp, hps⟩ := List.forall_mem_cons.mp hps
    obtain ⟨e, -, hs⟩ | ⟨k, t, hk, hs, h'⟩ := h.add hp
    · simpa [GraphStore.addAll, hs] using ih hps h hg
    · simpa [GraphStore.addAll, hs] using ih hps h' (hg.add hp hk)

/-- Whatever has been added to a graph, it comes back from its document with everything in it in the
order it had. A graph that was read from a document, with the routines that only nodes name and the
members that were left out, comes back from its own document as it is, so that this one is written
the same each time. -/
theorem ofJson_inverse :
    (∀ ps : List GraphPart, (∀ p ∈ ps, p.Plain) →
      ∃ g, ofJson (addAll ps .empty).2.graph.toJson = .ok g ∧ (addAll ps .empty).2.Shows g) ∧
    ∀ v g, ofJson v = .ok g → ofJson g.toJson = .ok g := by
  refine ⟨fun ps hps => ?_, fun v g hv => (FlowGraph.legible_of_ofJson hv).ofJson_toJson⟩
  obtain ⟨g, h, hg⟩ := represents_empty.addAll_legible hps legible_empty
  exact ⟨g, by rw [h.graph_eq, hg.ofJson_toJson], h.shows⟩

/-- A document that leaves out what it can, with a routine that is only named, an identifier and a
line in another form, and a label that is no text. -/
def sampleDocument : Json :=
  .object [
    ("nodes".toList, .list [
      .object [("id".toList, .int 1), ("routine".toList, .text ['f']), ("label".toList, .null)],
      .object [("id".toList, .text ['y']), ("routine".toList, .text ['f']),
        ("line".toList, .text "12".toList)]]),
    ("edges".toList, .list [
      .object [("src".toList, .int 1), ("dst".toList, .text ['y'])]])]

theorem ofJson_inverse_sample :
    (∀ p ∈ sampleParts, p.Plain) ∧
    (∃ g, ofJson (addAll sampleParts .empty).2.graph.toJson = .ok g ∧
      (addAll sampleParts .empty).2.Shows g) ∧
    ∃ g, ofJson sampleDocument = .ok g ∧ g.routines = [{ name := .text ['f'] }] ∧
      g.nodes.map (·.line) = [0, 12] ∧ ofJson g.toJson = .ok g := by
  have hplain : ∀ p ∈ sampleParts, p.Plain := by
    simp [sampleParts, GraphPart.Plain, Routine.Plain]
  obtain ⟨hstore, hdocument⟩ := ofJson_inverse
  refine ⟨hplain, hstore sampleParts hplain, _, rfl, by decide, by decide, ?_⟩
  exact hdocument sampleDocument _ rfl

end GraphStore
end Lockstep
