import Mathlib.Data.Set.Image
import Lockstep.Pair.Table
import Lockstep.Proofs.Correlation.Places
/-!
Flows that change their roles. The rules treat the two flows alike: whatever they can do, they can do
with the second one in the place of the first, if the declaration is turned around too. Since both are
in one routine all the while, it makes no difference whose routine a rule asks for.
-/

set_option autoImplicit false

namespace Lockstep

def Side.other : Side → Side
  | .a => .b
  | .b => .a

/-- The same pairs and barriers, with flow B for flow A and flow A for flow B. -/
def PairTable.mirror (t : PairTable) : PairTable where
  sources := t.sources.map Prod.swap
  sinks := t.sinks.map Prod.swap
  barriersA := t.barriersB
  barriersB := t.barriersA

def Places.mirror (k : Places) : Places := ⟨k.source2, k.source1, k.node2, k.node1⟩

/-- What one declaration says of two nodes the other says of them in the other order, and what it says
of one flow the other says of the other flow. -/
structure PairConfig.Mirrors (pairs pairs' : PairConfig) : Prop where
  source : ∀ a b, pairs'.isSourcePair b a = pairs.isSourcePair a b
  sink : ∀ x y, pairs'.isSinkPair y x = pairs.isSinkPair x y
  barrier : ∀ side n, pairs'.isBarrier side.other n = pairs.isBarrier side n

variable {g : FlowGraph} {pairs pairs' : PairConfig} {config : CorrelationConfig}
  {policy : SyncPolicy} {side : Side} {n : Nat} {a b : FlowNode} {s t : Position}
  {p q : Position × Position} {k : Places}

@[simp] theorem Side.other_other (side : Side) : side.other.other = side := by cases side <;> rfl

theorem Projection.member_other (side : Side) (p : FlowNode × FlowNode) :
    member side.other p.swap = member side p := by cases side <;> rfl

@[simp] theorem Places.mirror_mirror (k : Places) : k.mirror.mirror = k := rfl

theorem PairConfig.Mirrors.symm (h : pairs.Mirrors pairs') : pairs'.Mirrors pairs where
  source a b := (h.source b a).symm
  sink x y := (h.sink y x).symm
  barrier side n := by rw [← h.barrier, Side.other_other]

theorem PairTable.mirrors (t : PairTable) : t.config.Mirrors t.mirror.config where
  source a b := by simp [mirror]
  sink x y := by simp [mirror]
  barrier side n := by cases side <;> simp [mirror, Side.other, barriers]

theorem FlowEdge.Agrees.symm {d e : FlowEdge} (h : d.Agrees e) : e.Agrees d := by
  refine ⟨h.1.symm, fun hjump => ?_⟩
  have hsame := h.2 (h.1 ▸ hjump)
  simp only [sameSite, Bool.and_eq_true, beq_iff_eq] at hsame ⊢
  exact ⟨hsame.1.symm, hsame.1 ▸ hsame.2⟩

theorem Moves.mirror (hm : Moves g pairs side s t) (h : pairs.Mirrors pairs') :
    Moves g pairs' side.other s t := by
  obtain ⟨e, he, hs, ht, hnode, hleaves, henters, hc⟩ := hm
  rw [← h.barrier] at hleaves henters
  exact ⟨e, he, hs, ht, hnode, hleaves, henters, hc⟩

/-- Going over together asks where flow A comes from; flow B comes from there too. -/
theorem PairStep.mirror (hstep : PairStep g pairs p q) (h : pairs.Mirrors pairs')
    (hp : p.1.node.routine = p.2.node.routine) : PairStep g pairs' p.swap q.swap := by
  cases hstep with
  | moveA hu hr => exact .moveB (hu.mirror h) hr
  | moveB hv hr => exact .moveA (hv.mirror h) hr
  | joint hu hv hr hne => exact .joint (hv.mirror h) (hu.mirror h) hr.symm (hp ▸ hr ▸ hne)

theorem SyncPolicy.Permits.mirror (h : policy.Permits g p q)
    (hp : p.1.node.routine = p.2.node.routine) (hq : q.1.node.routine = q.2.node.routine) :
    policy.Permits g p.swap q.swap := by
  intro hpolicy hne
  obtain ⟨d₁, h₁, d₂, h₂, hagree⟩ := h hpolicy (by rw [hp, hq]; exact hne)
  exact ⟨d₂, h₂, d₁, h₁, hagree.symm⟩

theorem PairRun.mirror (hrun : PairRun g pairs policy p n q) (h : pairs.Mirrors pairs')
    (hp : p.1.node.routine = p.2.node.routine) : PairRun g pairs' policy p.swap n q.swap := by
  induction hrun with
  | start => exact .start
  | step hrun hstep hpermits ih =>
    have haligned := hrun.aligned hp
    exact ih.step (hstep.mirror h haligned) (hpermits.mirror haligned hstep.aligned)

theorem PairConfig.Mirrors.isSink (h : pairs.Mirrors pairs') (hg : g.Valid) {node : FlowNode}
    (hnode : node ∈ g.nodes) (hsink : (pairs.single g side).isSink node = true) :
    (pairs'.single g side.other).isSink node = true := by
  obtain ⟨⟨x, y⟩, hp, hpair, hmember⟩ := (Projection.isSink_config hg hnode).mp hsink
  obtain ⟨hx, hy, hr⟩ := hg.mem_routinePairs.mp hp
  refine (Projection.isSink_config hg hnode).mpr ⟨(y, x), hg.mem_routinePairs.mpr ⟨hy, hx, hr.symm⟩,
    (h.sink x y).trans hpair, ?_⟩
  exact (Projection.member_other side (x, y)).trans hmember

theorem Escapes.mirror (he : Escapes g (pairs.single g side) s) (h : pairs.Mirrors pairs')
    (hg : g.Valid) (hs : s.node ∈ g.nodes) : Escapes g (pairs'.single g side.other) s := by
  obtain ⟨t, hw, hsink⟩ := he
  exact ⟨t, hw.of_moves fun hm => hm.mirror h, h.isSink hg (hw.mem_nodes hs) hsink⟩

theorem Journey.mirror (hj : Journey g pairs config n a b s t) (h : pairs.Mirrors pairs')
    (hg : g.Valid) : Journey g pairs' config n b a t s where
  source := {
    memA := hj.source.memB
    memB := hj.source.memA
    aligned := hj.source.aligned.symm
    pair := (h.source a b).trans hj.source.pair }
  run := hj.run.mirror h hj.source.aligned
  escapesA := hj.escapesB.mirror h hg hj.mem_nodes.2
  escapesB := hj.escapesA.mirror h hg hj.mem_nodes.1

theorem JourneyTo.mirror (hj : JourneyTo g pairs config n k) (h : pairs.Mirrors pairs')
    (hg : g.Valid) : JourneyTo g pairs' config n k.mirror := by
  obtain ⟨a, b, s, t, hj, rfl⟩ := hj
  exact ⟨b, a, t, s, hj.mirror h hg, rfl⟩

theorem PairConfig.Mirrors.journeyTo_iff (h : pairs.Mirrors pairs') (hg : g.Valid) :
    JourneyTo g pairs' config n k.mirror ↔ JourneyTo g pairs config n k := by
  constructor
  · intro hj
    exact hj.mirror h.symm hg
  · intro hj
    exact hj.mirror h hg

theorem recordedPlaces_mirror (hg : g.Valid) (hname : g.Nameable) (hmost : config.most = 0)
    (t : PairTable) : recordedPlaces g t.mirror.config config =
      Places.mirror '' recordedPlaces g t.config config := by
  ext k
  rw [Set.mem_image_iff_of_inverse Places.mirror_mirror Places.mirror_mirror,
    (t.mirror.answers g).mem_recordedPlaces hg hname hmost,
    (t.answers g).mem_recordedPlaces hg hname hmost]
  exact exists_congr fun n => t.mirrors.journeyTo_iff hg (k := k.mirror)

theorem PairConfig.Mirrors.mem_foundPlaces (h : pairs.Mirrors pairs') (hpairs : pairs.Answers g)
    (hpairs' : pairs'.Answers g) (hg : g.Valid) (hname : g.Nameable) (hmost : config.most = 0)
    (hk : k ∈ foundPlaces g pairs config) : k.mirror ∈ foundPlaces g pairs' config := by
  rw [hpairs.mem_foundPlaces hg hname hmost] at hk
  rw [hpairs'.mem_foundPlaces hg hname hmost]
  obtain ⟨n, a, b, s, t, hj, hsink, rfl⟩ := hk
  exact ⟨n, b, a, t, s, hj.mirror h hg, (h.sink s.node t.node).trans hsink, rfl⟩

theorem foundPlaces_mirror (hg : g.Valid) (hname : g.Nameable) (hmost : config.most = 0)
    (t : PairTable) : foundPlaces g t.mirror.config config =
      Places.mirror '' foundPlaces g t.config config := by
  ext k
  rw [Set.mem_image_iff_of_inverse Places.mirror_mirror Places.mirror_mirror]
  constructor
  · exact t.mirrors.symm.mem_foundPlaces (t.mirror.answers g) (t.answers g) hg hname hmost
  · exact t.mirrors.mem_foundPlaces (t.answers g) (t.mirror.answers g) hg hname hmost (k := k.mirror)

/-- Correlating by the mirrored table records and finds the mirrored places, and the chains are as
long as before. -/
theorem correlate_mirror (hg : g.Built) (hname : g.Nameable) (policy : SyncPolicy) (depth : Int)
    (t : PairTable) :
    let config : CorrelationConfig := { policy, depth, most := 0 }
    ∃ c c' fs fs', correlate g t.config config = .ok c ∧ c.findings = .ok fs ∧
      correlate g t.mirror.config config = .ok c' ∧ c'.findings = .ok fs' ∧
      recordedPlaces g t.mirror.config config = Places.mirror '' recordedPlaces g t.config config ∧
      foundPlaces g t.mirror.config config = Places.mirror '' foundPlaces g t.config config ∧
      ∀ q ∈ c.quadruples, ∀ q' ∈ c'.quadruples, q'.places = q.places.mirror →
        (c'.chain q').length = (c.chain q).length := by
  intro config
  obtain ⟨c, fs, hc, hfs⟩ := (t.answers g).exists_findings hg.valid hname config
  obtain ⟨c', fs', hc', hfs'⟩ := (t.mirror.answers g).exists_findings hg.valid hname config
  refine ⟨c, c', fs, fs', hc, hfs, hc', hfs', recordedPlaces_mirror hg.valid hname rfl t,
    foundPlaces_mirror hg.valid hname rfl t, fun q hq q' hq' hplaces => ?_⟩
  obtain rfl := eq_outcome_of_correlate hc
  obtain rfl := eq_outcome_of_correlate hc'
  refine Engine.length_chain_congr hg.valid hg.valid rfl rfl hq' hq fun n => ?_
  rw [hplaces]
  exact t.mirrors.journeyTo_iff hg.valid

/-- Flow A may not pass `q`, and flow B, for which the first value goes in the mirror, is free to. -/
theorem correlate_mirror_sample :
    let t : PairTable :=
      { sources := [(['s'], ['t'])], sinks := [(['k'], ['l'])], barriersA := [['q']] }
    let config : CorrelationConfig := { policy := .callSite, depth := 1, most := 0 }
    FlowGraph.sample.Built ∧ FlowGraph.sample.Nameable ∧
    foundPlaces .sample t.mirror.config config =
      Places.mirror '' foundPlaces .sample t.config config ∧
    (foundPlaces .sample t.config config).Nonempty := by
  intro t config
  have hname : FlowGraph.sample.Nameable := ⟨by decide, by decide⟩
  obtain ⟨-, -, -, -, -, -, -, -, -, hfound, -⟩ :=
    correlate_mirror FlowGraph.built_sample hname .callSite 1 t
  exact ⟨FlowGraph.built_sample, hname, hfound,
    (t.answers _).nonempty_foundPlaces FlowGraph.built_sample.valid hname (by decide)⟩

end Lockstep
