import Mathlib.Data.List.Destutter
import Lockstep.Proofs.Correlation.Outcome
/-!
The traces of a finding. Each of them is a way through the path graph of its flow, from a source to a
sink, with one step for each rule of the chain that moves the flow. Both go through the same
routines, and go over from one to the next where a joint step does.
-/

set_option autoImplicit false

namespace Lockstep

open Search

section Collapse

variable {α : Type} [DecidableEq α] {xs : List α} {x y : α}

/-- What comes after the end is kept if it differs from the end. -/
theorem destutter_concat (h : xs.getLast? = some x) : (xs ++ [y]).destutter (· ≠ ·) =
    if x = y then xs.destutter (· ≠ ·) else xs.destutter (· ≠ ·) ++ [y] := by
  induction xs with
  | nil => simp at h
  | cons a xs ih =>
    cases xs with
    | nil =>
      obtain rfl : a = x := by simpa using h
      by_cases hay : a = y <;> simp [List.destutter_pair, hay]
    | cons b xs =>
      have hrest := ih (by simpa using h)
      simp only [List.cons_append, List.destutter_cons_cons] at hrest ⊢
      by_cases hab : a = b
      · subst hab
        simpa [List.destutter_cons'] using hrest
      · rw [if_pos hab, if_pos hab]
        simp only [List.destutter_cons'] at hrest
        rw [hrest]
        by_cases hxy : x = y <;> simp [hxy]

end Collapse

theorem Correlation.trace_eq_destutter (ns : List PathNode) : trace ns = ns.destutter (· ≠ ·) := by
  fun_induction trace ns with
  | case1 => rfl
  | case2 n => rfl
  | case3 n rest ih => simpa [List.destutter_cons_cons, List.destutter_cons'] using ih
  | case4 n m rest hne ih => simp [hne, ih, List.destutter_cons']

def Quadruple.source (q : Quadruple) : Side → PathNode
  | .a => q.source1
  | .b => q.source2

def Quadruple.node (q : Quadruple) : Side → PathNode
  | .a => q.node1
  | .b => q.node2

def Engine.flow (e : Engine) : Side → PathGraph
  | .a => e.flowA
  | .b => e.flowB

/-- The rule takes the flow of this side along. -/
def StepKind.moves : Side → StepKind → Bool
  | .a, .advanceA => true
  | .b, .advanceB => true
  | _, .joint => true
  | _, _ => false

/-- A trace along a chain leads through a path graph, by one step for each rule that moves the flow of
this side. -/
structure Traced (p : PathGraph) (side : Side) (chain : List Record) (first last : PathNode)
    (trace : List PathNode) : Prop where
  head : trace.head? = some first
  last : trace.getLast? = some last
  steps : trace.IsChain fun n m => m ∈ p.successors n
  length : trace.length = 1 + (chain.filter (·.step.moves side)).length

variable {e : Engine} {side : Side} {k : StepKind} {p q : Quadruple} {rs : List Record} {r : Record}
  {flow : PathGraph} {first n m : PathNode} {trace : List PathNode}

theorem Traced.stay (h : Traced flow side rs first n trace) (hk : r.step.moves side = false) :
    Traced flow side (rs ++ [r]) first n trace where
  head := h.head
  last := h.last
  steps := h.steps
  length := by simp [h.length, List.filter_append, hk]

theorem Traced.move (h : Traced flow side rs first n trace) (hk : r.step.moves side = true)
    (hm : m ∈ flow.successors n) : Traced flow side (rs ++ [r]) first m (trace ++ [m]) where
  head := by rw [List.head?_append, h.head, Option.some_or]
  last := by simp
  steps := by
    refine List.isChain_append.mpr ⟨h.steps, by simp, fun x hx y hy => ?_⟩
    obtain rfl : n = x := Option.some.inj (h.last.symm.trans hx)
    obtain rfl : m = y := Option.some.inj hy
    exact hm
  length := by simp [h.length, List.filter_append, hk, Nat.add_assoc]

namespace Engine

/-- A rule takes a flow one step along or leaves it where it is. -/
theorem Derives.oneSide (h : e.Derives k p q) (side : Side) :
    (k.moves side = false ∧ q.node side = p.node side) ∨
    (k.moves side = true ∧ q.node side ∈ (e.flow side).successors (p.node side)) := by
  cases h with
  | advanceA hn _ =>
    cases side with
    | a => exact Or.inr ⟨rfl, hn⟩
    | b => exact Or.inl ⟨rfl, rfl⟩
  | advanceB hn _ =>
    cases side with
    | a => exact Or.inl ⟨rfl, rfl⟩
    | b => exact Or.inr ⟨rfl, hn⟩
  | joint h₁ h₂ _ _ _ =>
    cases side with
    | a => exact Or.inr ⟨rfl, h₁⟩
    | b => exact Or.inr ⟨rfl, h₂⟩

/-- Only a joint step leaves the routine. -/
theorem Derives.routine_eq_iff (h : e.Derives k p q) (hp : p.isAligned = true) (side : Side) :
    (p.node side).routine = (q.node side).routine ↔ k ≠ .joint := by
  have hroutine : p.node1.routine = p.node2.routine := by simpa [Quadruple.isAligned] using hp
  cases h with
  | advanceA _ hr =>
    cases side with
    | a => simp [Quadruple.node, hr, hroutine]
    | b => simp [Quadruple.node]
  | advanceB _ hr =>
    cases side with
    | a => simp [Quadruple.node]
    | b => simp [Quadruple.node, hr, hroutine]
  | joint _ _ htogether hleaves _ =>
    cases side with
    | a => simpa [Quadruple.node] using hleaves.symm
    | b => simpa [Quadruple.node, ← htogether, ← hroutine] using hleaves.symm

/-- A flow that is taken along comes to another path node. -/
theorem Derives.node_ne (h : e.Derives k p q) (hp : p.isAligned = true) (hne : p ≠ q)
    (hk : k.moves side = true) : p.node side ≠ q.node side := by
  by_cases hjoint : k = .joint
  · intro heq
    exact (h.routine_eq_iff hp side).mp (congrArg PathNode.routine heq) hjoint
  · cases h with
    | @advanceA _ n _ _ =>
      cases side with
      | a =>
        intro heq
        obtain rfl : p.node1 = n := heq
        exact hne rfl
      | b => simp [StepKind.moves] at hk
    | @advanceB _ n _ _ =>
      cases side with
      | a => simp [StepKind.moves] at hk
      | b =>
        intro heq
        obtain rfl : p.node2 = n := heq
        exact hne rfl
    | joint => exact absurd rfl hjoint

/-- The trace of one flow along a chain. -/
def sideTrace (side : Side) (chain : List Record) : List PathNode :=
  Correlation.trace (chain.map (·.quadruple.node side))

theorem sideTrace_concat (h : e.Lineage rs p) :
    sideTrace side (rs ++ [⟨q, some p, k⟩]) =
      if p.node side = q.node side then sideTrace side rs
      else sideTrace side rs ++ [q.node side] := by
  have hlast : (rs.map (·.quadruple.node side)).getLast? = some (p.node side) := by
    have hlast := congrArg (Option.map (Quadruple.node · side)) h.getLast?
    simpa [List.getLast?_map] using hlast
  simp only [sideTrace, Correlation.trace_eq_destutter, List.map_append]
  exact destutter_concat hlast

/-- A rule leaves the trace of a flow as it was, or adds a path node to it, in another routine if the
step is joint. -/
theorem sideTrace_derived (h : e.Lineage rs p) (hd : e.Derives k p q) (side : Side) :
    (sideTrace side (rs ++ [⟨q, some p, k⟩]) = sideTrace side rs ∧ k ≠ .joint) ∨
    (sideTrace side (rs ++ [⟨q, some p, k⟩]) = sideTrace side rs ++ [q.node side] ∧
      ((p.node side).routine = (q.node side).routine ↔ k ≠ .joint)) := by
  have hroutine := hd.routine_eq_iff h.isAligned side
  rw [sideTrace_concat h]
  by_cases hnode : p.node side = q.node side
  · exact Or.inl ⟨if_pos hnode, hroutine.mp (congrArg PathNode.routine hnode)⟩
  · exact Or.inr ⟨if_neg hnode, hroutine⟩

theorem Lineage.traced (h : e.Lineage rs q) (side : Side) :
    Traced (e.flow side) side rs (q.source side) (q.node side) (sideTrace side rs) := by
  induction h with
  | @seed q hs =>
    have hstart : q.node side = q.source side := by
      cases side with
      | a => exact hs.start1.symm
      | b => exact hs.start2.symm
    have hseed : StepKind.seed.moves side = false := by cases side <;> rfl
    rw [hstart]
    exact ⟨by simp [sideTrace, Correlation.trace, hstart],
      by simp [sideTrace, Correlation.trace, hstart],
      by simp [sideTrace, Correlation.trace], by simp [sideTrace, Correlation.trace, hseed]⟩
  | @derived rs p q k hrs hd hnew ih =>
    have hsource : q.source side = p.source side := by
      cases side with
      | a => exact hd.sources.1
      | b => exact hd.sources.2
    rw [sideTrace_concat hrs, hsource]
    rcases hd.oneSide side with ⟨hk, hstay⟩ | ⟨hk, hmove⟩
    · rw [hstay, if_pos rfl]
      exact ih.stay hk
    · have hne : p ≠ q := fun heq => hnew (heq ▸ hrs.mem)
      rw [if_neg (hd.node_ne hrs.isAligned hne hk)]
      exact ih.move hk hmove

/-- The routines that a flow goes through, each as often as it is entered. -/
def routinesAlong (trace : List PathNode) : List Routine :=
  (trace.map (·.routine)).destutter (· ≠ ·)

theorem routinesAlong_concat (h : e.Lineage rs p) (hd : e.Derives k p q) :
    routinesAlong (sideTrace side (rs ++ [⟨q, some p, k⟩])) =
      if k = .joint then routinesAlong (sideTrace side rs) ++ [(q.node side).routine]
      else routinesAlong (sideTrace side rs) := by
  have hlast : ((sideTrace side rs).map (·.routine)).getLast? = some (p.node side).routine := by
    rw [List.getLast?_map, (h.traced side).last]
    rfl
  rcases sideTrace_derived h hd side with ⟨hsame, hk⟩ | ⟨hlonger, hroutine⟩
  · rw [hsame, if_neg hk]
  · rw [hlonger, routinesAlong, List.map_append]
    refine (destutter_concat hlast).trans ?_
    by_cases hk : k = .joint
    · rw [if_pos hk, if_neg fun heq => hroutine.mp heq hk]
      rfl
    · rw [if_neg hk, if_pos (hroutine.mpr hk)]
      rfl

/-- Both flows go through the same routines, one more than there are joint steps. -/
theorem Lineage.routines (h : e.Lineage rs q) :
    routinesAlong (sideTrace .a rs) = routinesAlong (sideTrace .b rs) ∧
    (routinesAlong (sideTrace .a rs)).length = (rs.filter (·.step == .joint)).length + 1 := by
  induction h with
  | seed hs =>
    simp [routinesAlong, sideTrace, Correlation.trace, Quadruple.node, hs.aligned]
  | @derived rs p q k hrs hd _ ih =>
    have haligned : (q.node .a).routine = (q.node .b).routine := by
      simpa [Quadruple.isAligned, Quadruple.node] using hd.isAligned
    rw [routinesAlong_concat hrs hd, routinesAlong_concat hrs hd, ih.1.symm, haligned]
    refine ⟨rfl, ?_⟩
    by_cases hk : k = .joint
    · simp [hk, ih.2, List.filter_append]
    · simp [hk, ih.2, List.filter_append]

end Engine

/-- What a finding is in the correlation of a graph: two traces of single flows, from a joint source
to a joint sink, that go through the same routines together. -/
structure Finding.InStep (g : FlowGraph) (pairs : PairConfig) (config : CorrelationConfig)
    (c : Correlation) (f : Finding) : Prop where
  traceA : Traced (pairs.flow g config.depth .a) .a (c.chain f.quadruple) f.quadruple.source1
    f.quadruple.node1 f.traceA
  traceB : Traced (pairs.flow g config.depth .b) .b (c.chain f.quadruple) f.quadruple.source2
    f.quadruple.node2 f.traceB
  sourceA : f.quadruple.source1 ∈ (pairs.flow g config.depth .a).sources
  emptyA : f.quadruple.source1.context.Same (.empty config.depth)
  sourceB : f.quadruple.source2 ∈ (pairs.flow g config.depth .b).sources
  emptyB : f.quadruple.source2.context.Same (.empty config.depth)
  sourcePair : pairs.isSourcePair f.quadruple.source1.node f.quadruple.source2.node = true
  sinkPair : pairs.isSinkPair f.quadruple.node1.node f.quadruple.node2.node = true
  routines : f.routinesA.destutter (· ≠ ·) = f.routinesB.destutter (· ≠ ·)
  crossings : (f.routinesA.destutter (· ≠ ·)).length = f.jointSteps + 1

/-- Correlating a graph that allows it has findings, and all findings of a correlation, under any
policy, depth and limit, are two traces in step. -/
theorem correlate_inStep {g : FlowGraph} (hg : g.Built) (pairs : PairConfig)
    (config : CorrelationConfig) :
    (g.Nameable → pairs.Answers g →
      ∃ c fs, correlate g pairs config = .ok c ∧ c.findings = .ok fs) ∧
    ∀ c fs, correlate g pairs config = .ok c → c.findings = .ok fs →
      ∀ f ∈ fs, f.InStep g pairs config c := by
  refine ⟨fun hname hpairs => hpairs.exists_findings hg.valid hname config,
    fun c fs hc hfs f hf => ?_⟩
  obtain rfl := eq_outcome_of_correlate hc
  obtain ⟨hmem, hsink, hA, hB, hjoint⟩ := Correlation.of_mem_findings hfs hf
  have hchain := Engine.outcome_lineage hmem
  obtain ⟨hroutines, hlength⟩ := hchain.routines
  have hseed := hchain.isSeed
  have hsourceA := (Engine.source_at hg.valid hseed.sourceA).2
  have hsourceB := (Engine.source_at hg.valid hseed.sourceB).2
  exact {
    traceA := hA ▸ hchain.traced .a
    traceB := hB ▸ hchain.traced .b
    sourceA := hseed.sourceA
    emptyA := hseed.start1 ▸ hsourceA.2
    sourceB := hseed.sourceB
    emptyB := hseed.start2 ▸ hsourceB.2
    sourcePair := hseed.pair
    sinkPair := hsink
    routines := by
      rw [Finding.routinesA, Finding.routinesB, hA, hB]
      exact hroutines
    crossings := by
      rw [Finding.routinesA, hA, hjoint]
      exact hlength }

/-- Both values are handed to the call together, and each goes on to its own sink inside. -/
theorem correlate_inStep_sample :
    let pairs := PairTable.config { sources := [(['s'], ['t'])], sinks := [(['k'], ['l'])] }
    let config : CorrelationConfig := { policy := .callSite, depth := 2, most := 20 }
    FlowGraph.sample.Built ∧ FlowGraph.sample.Nameable ∧ pairs.Answers .sample ∧
    ∃ c fs, correlate .sample pairs config = .ok c ∧ c.findings = .ok fs ∧ fs ≠ [] ∧
      ∀ f ∈ fs, f.InStep .sample pairs config c := by
  intro pairs config
  have hname : FlowGraph.sample.Nameable := ⟨by decide, by decide⟩
  have hpairs : pairs.Answers .sample := PairTable.answers _ _
  obtain ⟨hexists, hall⟩ := correlate_inStep FlowGraph.built_sample pairs config
  obtain ⟨c, fs, hc, hfs⟩ := hexists hname hpairs
  refine ⟨FlowGraph.built_sample, hname, hpairs, c, fs, hc, hfs, ?_, hall c fs hc hfs⟩
  obtain rfl := eq_outcome_of_correlate hc
  have hquadruples := Correlation.quadruple_of_mapM hfs
  rintro rfl
  exact absurd hquadruples (by decide)

end Lockstep
