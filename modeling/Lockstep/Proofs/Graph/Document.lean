import Lockstep.Graph.Document
import Lockstep.Proofs.Attempt
import Lockstep.Proofs.Graph.Growth
/-!
What comes of reading a document. Each element adds to the graph or is refused, so that a graph which
is read is one that additions have built. All that is refused is a mistake in the document, but for
an infinite number: a node that has one where a whole number is wanted stops the reading, if nothing
before it does.
-/

set_option autoImplicit false

namespace Lockstep.FlowGraph

variable {g g' : FlowGraph} {v : Json} {vs : List Json} {e : DocumentError}

/-! ### Elements in turn -/

section

variable {step : FlowGraph → Json → Checked FlowGraph}

theorem readAll_cons : readAll step g (v :: vs) = step g v >>= fun k => readAll step k vs := by
  rw [readAll]
  cases step g v <;> rfl

theorem readAll_preserves {P : FlowGraph → Prop} (hstep : ∀ g g' v, P g → step g v = .ok g' → P g')
    (hg : P g) (h : readAll step g vs = .ok g') : P g' := by
  induction vs generalizing g with
  | nil => exact Except.ok.inj h ▸ hg
  | cons v vs ih =>
    obtain ⟨k, hk, hrest⟩ := bind_eq_ok.mp (readAll_cons.symm.trans h)
    exact ih (hstep g k v hg hk) hrest

/-- Reading fails at an element that fails when all before it have been read. -/
theorem readAll_eq_error : readAll step g vs = .error e ↔
    ∃ before v after k, vs = before ++ v :: after ∧ readAll step g before = .ok k ∧
      step k v = .error e := by
  induction vs generalizing g with
  | nil => simp [readAll]
  | cons w vs ih =>
    rw [readAll_cons, bind_eq_error]
    constructor
    · rintro (hw | ⟨k, hk, hrest⟩)
      · exact ⟨[], w, vs, g, rfl, rfl, hw⟩
      · obtain ⟨before, v, after, l, rfl, hl, hv⟩ := ih.mp hrest
        exact ⟨w :: before, v, after, l, rfl, readAll_cons.trans (bind_eq_ok.mpr ⟨k, hk, hl⟩), hv⟩
    · rintro ⟨before, v, after, l, heq, hl, hv⟩
      cases before with
      | nil =>
        obtain ⟨rfl, rfl⟩ := List.cons.inj heq
        exact Or.inl (Except.ok.inj hl ▸ hv)
      | cons u before =>
        obtain ⟨rfl, rfl⟩ := List.cons.inj heq
        obtain ⟨k, hk, hbefore⟩ := bind_eq_ok.mp (readAll_cons.symm.trans hl)
        exact Or.inr ⟨k, hk, ih.mpr ⟨before, v, after, l, rfl, hbefore, hv⟩⟩

end

/-! ### What is taken and what is refused -/

section

variable {α : Type} {x : Except GraphError α} {a : α} {name : Text} {ms : List (Text × Json)}
  {xs : List Json}

theorem elements_eq_error (h : elements v = .error e) : e = .malformed (.notIterable v) := by
  cases v <;> cases h <;> rfl

theorem section?_eq (name : Text) (ms : List (Text × Json)) : section? name ms =
    elements (optional name (.list []) ms) := by
  cases h : Json.member? name ms <;> simp [section?, optional, h, elements]

theorem section_eq_error : section? name ms = .error e ↔
    ∃ v, Json.member? name ms = some v ∧ elements v = .error e := by
  cases h : Json.member? name ms <;> simp [section?, h]

theorem membersOf_eq_ok : membersOf v = .ok ms ↔ v = .object ms := by
  cases v <;> simp [membersOf]

theorem membersOf_eq_error : membersOf v = .error e ↔
    (∀ ms, v ≠ .object ms) ∧ e = .malformed (.notMembers v) := by
  cases v <;> simp [membersOf, eq_comm]

theorem required_eq_ok : required name ms = .ok v ↔ Json.member? name ms = some v := by
  cases h : Json.member? name ms <;> simp [required, h]

theorem required_eq_error : required name ms = .error e ↔
    Json.member? name ms = none ∧ e = .missing name := by
  cases h : Json.member? name ms <;> simp [required, h, eq_comm]

theorem nameable_eq_ok : nameable v = .ok () ↔ v.isScalar = true := by
  cases h : v.isScalar <;> simp [nameable, h]

theorem nameable_eq_error : nameable v = .error e ↔
    v.isScalar = false ∧ e = .malformed (.notName v) := by
  cases h : v.isScalar <;> simp [nameable, h, eq_comm]

theorem ofWord?_eq_some {t : Text} {k : NodeKind} : NodeKind.ofWord? t = some k ↔ t = k.word := by
  refine ⟨fun h => ?_, fun h => h ▸ NodeKind.ofWord?_word k⟩
  have hk := List.find?_some h
  exact (beq_iff_eq.mp hk).symm

theorem nodeKindOf_eq_ok {k : NodeKind} : nodeKindOf v = .ok k ↔ v = .text k.word := by
  have hkind : v.asText?.bind NodeKind.ofWord? = some k ↔ v = .text k.word := by
    cases v <;> simp [Json.asText?, ofWord?_eq_some]
  rw [← hkind]
  cases h : v.asText?.bind NodeKind.ofWord? <;> simp [nodeKindOf, h]

theorem nodeKindOf_eq_error : nodeKindOf v = .error e ↔
    (∀ k : NodeKind, v ≠ .text k.word) ∧ e = .malformed (.notNodeKind v) := by
  simp only [ne_eq, ← nodeKindOf_eq_ok]
  cases h : v.asText?.bind NodeKind.ofWord? <;> simp [nodeKindOf, h, eq_comm]

theorem edgeKindOf_eq_error (h : edgeKindOf v = .error e) : e = .malformed (.notEdgeKind v) := by
  unfold edgeKindOf at h
  split at h <;> cases h
  rfl

theorem graphStep_eq_ok : graphStep x = .ok a ↔ x = .ok a := by cases x <;> simp [graphStep]

theorem graphStep_eq_error : graphStep x = .error e ↔ ∃ err, x = .error err ∧ e = .graph err := by
  cases x <;> simp [graphStep, eq_comm]

end

/-! ### What an element adds -/

theorem readRoutine_eq_ok (h : readRoutine g v = .ok g') :
    ∃ r r', r.name.isScalar = true ∧ g.addRoutine r = .ok (r', g') := by
  simp only [readRoutine, bind_eq_ok, graphStep_eq_ok] at h
  obtain ⟨ms, -, name, -, ⟨⟩, hname, ⟨r', k⟩, hr, hk⟩ := h
  exact ⟨_, r', nameable_eq_ok.mp hname, hr.trans (by rw [← Except.ok.inj hk])⟩

/-- A node comes into a routine of the graph, or into one that is registered for it. -/
theorem readNode_eq_ok (h : readNode g v = .ok g') : ∃ n k, (n.routine ∈ g.routines ∧ k = g ∨
    ∃ name, name.isScalar = true ∧ g.addRoutine { name } = .ok (n.routine, k)) ∧
    k.addNode n = .ok g' ∧ n.routine.file.isScalar = true := by
  simp only [readNode, bind_eq_ok, graphStep_eq_ok] at h
  obtain ⟨ms, -, name, -, ⟨⟩, hname, ⟨r, k⟩, hr, id, -, kind, -, argIndex, -, line, -, l, hl, ⟨⟩,
    hfile, ⟨⟩⟩ := h
  refine ⟨_, k, ?_, hl, nameable_eq_ok.mp hfile⟩
  cases hf : g.findRoutine? name with
  | some known =>
    obtain ⟨rfl, rfl⟩ : known = r ∧ g = k := by simpa [hf] using hr
    exact Or.inl ⟨List.mem_of_find?_eq_some hf, rfl⟩
  | none =>
    rw [hf] at hr
    exact Or.inr ⟨name, nameable_eq_ok.mp hname, hr⟩

theorem readEdge_eq_ok (h : readEdge g v = .ok g') : ∃ e, g.addEdge e = .ok g' := by
  simp only [readEdge, bind_eq_ok, graphStep_eq_ok] at h
  obtain ⟨ms, -, source, -, target, -, kind, -, he⟩ := h
  exact ⟨_, he⟩

/-- A graph that additions have built, whose routines can be named and looked up by a document. -/
structure Legible (g : FlowGraph) : Prop where
  built : g.Built
  name : ∀ r ∈ g.routines, r.name.isScalar = true
  file : ∀ n ∈ g.nodes, n.routine.file.isScalar = true

theorem legible_empty : Legible .empty := ⟨.empty, by simp [empty], by simp [empty]⟩

theorem Legible.addRoutine (hg : g.Legible) {r r' : Routine} (hname : r.name.isScalar = true)
    (h : g.addRoutine r = .ok (r', g')) : g'.Legible := by
  refine ⟨hg.built.addRoutine h, ?_, (addRoutine_frame h).1 ▸ hg.file⟩
  rcases addRoutine_eq_ok h with ⟨-, rfl⟩ | ⟨-, -, rfl⟩
  · exact hg.name
  · simpa [or_imp, forall_and] using ⟨hg.name, hname⟩

theorem Valid.addRoutine_mem (hg : g.Valid) {r : Routine} (hr : r ∈ g.routines) :
    g.addRoutine r = .ok (r, g) := by
  simp [FlowGraph.addRoutine, hg.findRoutine?_name hr, Routine.agrees]

theorem Valid.addNode_eq_ok (hg : g.Valid) {n : FlowNode} (hr : n.routine ∈ g.routines)
    (h : g.addNode n = .ok g') : g' = { g with nodes := g.nodes ++ [n] } := by
  obtain ⟨r, k, -, hadd, rfl⟩ := FlowGraph.addNode_eq_ok h
  rw [hg.addRoutine_mem hr] at hadd
  obtain ⟨rfl, rfl⟩ := Prod.mk.inj (Except.ok.inj hadd)
  rfl

theorem Legible.addNode (hg : g.Legible) {n : FlowNode} (hr : n.routine ∈ g.routines)
    (hfile : n.routine.file.isScalar = true) (h : g.addNode n = .ok g') : g'.Legible := by
  refine ⟨hg.built.addNode h, ?_, ?_⟩
  · rw [hg.built.valid.addNode_eq_ok hr h]
    exact hg.name
  · rw [hg.built.valid.addNode_eq_ok hr h]
    simpa [or_imp, forall_and] using ⟨hg.file, hfile⟩

theorem Legible.addEdge (hg : g.Legible) {e : FlowEdge} (h : g.addEdge e = .ok g') : g'.Legible := by
  obtain ⟨s, t, -, -, -, -, rfl⟩ := addEdge_eq_ok h
  exact ⟨hg.built.addEdge h, hg.name, hg.file⟩

theorem Legible.readRoutine (hg : g.Legible) (h : FlowGraph.readRoutine g v = .ok g') :
    g'.Legible := by
  obtain ⟨r, r', hname, hr⟩ := readRoutine_eq_ok h
  exact hg.addRoutine hname hr

theorem Legible.readNode (hg : g.Legible) (h : FlowGraph.readNode g v = .ok g') : g'.Legible := by
  obtain ⟨n, k, ⟨hmem, rfl⟩ | ⟨name, hname, hr⟩, hn, hfile⟩ := readNode_eq_ok h
  · exact hg.addNode hmem hfile hn
  · have hmem : n.routine ∈ k.routines := (hg.built.valid.addRoutine hr).2.1
    exact (hg.addRoutine (r := { name }) hname hr).addNode hmem hfile hn

theorem Legible.readEdge (hg : g.Legible) (h : FlowGraph.readEdge g v = .ok g') : g'.Legible := by
  obtain ⟨e, he⟩ := readEdge_eq_ok h
  exact hg.addEdge he

theorem legible_of_ofJson (h : ofJson v = .ok g) : g.Legible := by
  cases v with
  | object ms =>
    simp only [ofJson, bind_eq_ok] at h
    obtain ⟨rs, -, g₁, h₁, ns, -, g₂, h₂, es, -, h₃⟩ := h
    have hg₁ := readAll_preserves (fun _ _ _ => Legible.readRoutine) legible_empty h₁
    have hg₂ := readAll_preserves (fun _ _ _ => Legible.readNode) hg₁ h₂
    exact readAll_preserves (fun _ _ _ => Legible.readEdge) hg₂ h₃
  | _ => cases h

/-! ### Infinite numbers -/

def isInfinite : Json → Bool
  | .float (.infinite _) => true
  | _ => false

theorem wholeNumber_eq_infinite : wholeNumber v = .error .infinite ↔ isInfinite v = true := by
  cases v with
  | float f => cases f <;> simp [wholeNumber, Binary64.trunc?, isInfinite]
  | text t => cases h : Literal.int? t <;> simp [wholeNumber, h, isInfinite]
  | _ => simp [wholeNumber, isInfinite]

theorem section_ne_infinite (name : Text) (ms : List (Text × Json)) : section? name ms ≠
    .error .infinite := by
  intro h
  obtain ⟨v, -, hv⟩ := section_eq_error.mp h
  cases elements_eq_error hv

theorem readRoutine_ne_infinite (g : FlowGraph) (v : Json) : readRoutine g v ≠ .error .infinite := by
  simp [readRoutine, bind_eq_error, membersOf_eq_error, required_eq_error, nameable_eq_error,
    graphStep_eq_error, pure, Except.pure]

theorem readEdge_ne_infinite (g : FlowGraph) (v : Json) : readEdge g v ≠ .error .infinite := by
  have hkind {v : Json} : edgeKindOf v ≠ .error .infinite := fun h => nomatch edgeKindOf_eq_error h
  simp [readEdge, bind_eq_error, membersOf_eq_error, required_eq_error, hkind, graphStep_eq_error]

/-- A routine that only a node names can always be registered. -/
theorem exists_routine (g : FlowGraph) (name : Json) : ∃ p, graphStep (match g.findRoutine? name with
    | some r => .ok (r, g)
    | none => g.addRoutine { name }) = .ok p := by
  cases h : g.findRoutine? name with
  | some r => exact ⟨_, rfl⟩
  | none =>
    simp only [FlowGraph.addRoutine, h]
    exact ⟨_, rfl⟩

/-- A node that can be read up to a whole number which is infinite. -/
structure Boundless (ms : List (Text × Json)) : Prop where
  routine : ∃ name, Json.member? "routine".toList ms = some name ∧ name.isScalar = true
  id : ∃ id, Json.member? "id".toList ms = some id
  kind : ∃ k : NodeKind, optional "kind".toList (.text NodeKind.expr.word) ms = .text k.word
  number : isInfinite (optional "arg_index".toList (.int (-1)) ms) = true ∨
    (∃ i, wholeNumber (optional "arg_index".toList (.int (-1)) ms) = .ok i) ∧
    isInfinite (optional "line".toList (.int 0) ms) = true

theorem readNode_eq_infinite : readNode g v = .error .infinite ↔
    ∃ ms, v = .object ms ∧ Boundless ms := by
  simp only [readNode, bind_eq_error, membersOf_eq_error, required_eq_error, nameable_eq_error,
    nodeKindOf_eq_error, graphStep_eq_error, wholeNumber_eq_infinite]
  simp only [membersOf_eq_ok, required_eq_ok, nodeKindOf_eq_ok, reduceCtorEq, and_false,
    exists_false, false_or, pure, Except.pure, or_false]
  constructor
  · rintro ⟨ms, hv, name, hname, ⟨⟩, hscalar, -, -, id, hid, kind, hkind, hnumber⟩
    refine ⟨ms, hv, ⟨name, hname, nameable_eq_ok.mp hscalar⟩, ⟨id, hid⟩, ⟨kind, hkind⟩, ?_⟩
    exact hnumber.imp_right fun ⟨i, hi, hline⟩ => ⟨⟨i, hi⟩, hline⟩
  · rintro ⟨ms, hv, ⟨name, hname, hscalar⟩, ⟨id, hid⟩, ⟨kind, hkind⟩, hnumber⟩
    obtain ⟨p, hp⟩ := exists_routine g name
    refine ⟨ms, hv, name, hname, (), nameable_eq_ok.mpr hscalar, p, hp, id, hid, kind, hkind, ?_⟩
    exact hnumber.imp_right fun ⟨⟨i, hi⟩, hline⟩ => ⟨i, hi, hline⟩

/-- A document with some of its nodes only, and without its edges. -/
def upTo (ms : List (Text × Json)) (nodes : List Json) : Json :=
  .object [("routines".toList, optional "routines".toList (.list []) ms),
    ("nodes".toList, .list nodes)]

theorem ofJson_upTo {ms : List (Text × Json)} {nodes : List Json} :
    ofJson (upTo ms nodes) = .ok g ↔ ∃ rs, section? "routines".toList ms = .ok rs ∧
      ∃ k, readAll readRoutine empty rs = .ok k ∧ readAll readNode k nodes = .ok g := by
  have hroutines (routines : Json) : section? "routines".toList [("routines".toList, routines),
      ("nodes".toList, .list nodes)] = elements routines := rfl
  have hnodes (routines : Json) : section? "nodes".toList [("routines".toList, routines),
      ("nodes".toList, .list nodes)] = .ok nodes := rfl
  have hedges (routines : Json) : section? "edges".toList [("routines".toList, routines),
      ("nodes".toList, .list nodes)] = .ok [] := rfl
  simp only [upTo, ofJson, hroutines, hnodes, hedges, section?_eq _ ms, bind_eq_ok]
  simp [readAll]

/-- A document in which a node is reached that has an infinite number: what comes before it is read. -/
def StopsAtInfinity (v : Json) : Prop := ∃ ms before node after,
  v = .object ms ∧ section? "nodes".toList ms = .ok (before ++ .object node :: after) ∧
  Boundless node ∧ ∃ g, ofJson (upTo ms before) = .ok g

theorem ofJson_eq_infinite : ofJson v = .error .infinite ↔ StopsAtInfinity v := by
  have hroutines {g : FlowGraph} {rs : List Json} : readAll readRoutine g rs ≠ .error .infinite := by
    intro h
    obtain ⟨-, v, -, k, -, -, hv⟩ := readAll_eq_error.mp h
    exact readRoutine_ne_infinite k v hv
  have hedges {g : FlowGraph} {es : List Json} : readAll readEdge g es ≠ .error .infinite := by
    intro h
    obtain ⟨-, v, -, k, -, -, hv⟩ := readAll_eq_error.mp h
    exact readEdge_ne_infinite k v hv
  cases v with
  | object ms =>
    simp only [ofJson, bind_eq_error, section_ne_infinite, hroutines, hedges, false_or, and_false,
      exists_false, or_false]
    constructor
    · rintro ⟨rs, hrs, k, hk, nodes, hnodes, hstop⟩
      obtain ⟨before, v, after, l, rfl, hbefore, hv⟩ := readAll_eq_error.mp hstop
      obtain ⟨node, rfl, hnode⟩ := readNode_eq_infinite.mp hv
      exact ⟨ms, before, node, after, rfl, hnodes, hnode, l,
        ofJson_upTo.mpr ⟨rs, hrs, k, hk, hbefore⟩⟩
    · rintro ⟨_, before, node, after, ⟨⟩, hnodes, hnode, l, hl⟩
      obtain ⟨rs, hrs, k, hk, hbefore⟩ := ofJson_upTo.mp hl
      exact ⟨rs, hrs, k, hk, _, hnodes, readAll_eq_error.mpr
        ⟨before, _, after, l, rfl, hbefore, readNode_eq_infinite.mpr ⟨node, rfl, hnode⟩⟩⟩
  | _ => simp [ofJson, StopsAtInfinity]

/-- A document is read to a graph that additions have built, or a mistake in it is reported, unless
reading stops at an infinite number. -/
theorem ofJson_outcome (v : Json) :
    (StopsAtInfinity v ∧ ofJson v = .error .infinite) ∨
    (¬ StopsAtInfinity v ∧ ((∃ g, ofJson v = .ok g ∧ g.Built) ∨
      ∃ e, ofJson v = .error e ∧ e.isReported = true)) := by
  by_cases hstop : StopsAtInfinity v
  · exact Or.inl ⟨hstop, ofJson_eq_infinite.mpr hstop⟩
  · refine Or.inr ⟨hstop, ?_⟩
    cases h : ofJson v with
    | ok g => exact Or.inl ⟨g, rfl, (legible_of_ofJson h).built⟩
    | error e =>
      refine Or.inr ⟨e, rfl, ?_⟩
      cases e with
      | infinite => exact absurd (ofJson_eq_infinite.mp h) hstop
      | _ => rfl

/-- The line of the only node is infinite, so there is neither a graph nor a report. -/
theorem ofJson_infinite_line :
    let v : Json := .object [("nodes".toList, .list [.object [("id".toList, .text ['a']),
      ("routine".toList, .text ['f']), ("line".toList, .float (.infinite false))]])]
    ¬ ((∃ g, ofJson v = .ok g) ∨ ∃ e, ofJson v = .error e ∧ e.isReported = true) := by
  intro v h
  have hv : ofJson v = .error .infinite := rfl
  obtain ⟨g, hg⟩ | ⟨e, he, hreported⟩ := h
  · exact absurd (hv.symm.trans hg) (by simp)
  · rw [← Except.error.inj (hv.symm.trans he)] at hreported
    exact absurd hreported (by decide)

end Lockstep.FlowGraph
