import Lockstep.Proofs.Correlation.Outcome
import Lockstep.Proofs.Flow.Renaming
/-!
Correlations of renamed path graphs. The rules ask of path nodes which of them are the same, where
they are and whether they are sources, and nothing else. So renamed flows have the same quadruples,
recorded in the same order, with the same chains, and the same findings.
-/

set_option autoImplicit false

namespace Lockstep

open Search

namespace Quadruple

def rename (f : PathNode → PathNode) (q : Quadruple) : Quadruple :=
  ⟨f q.source1, f q.source2, f q.node1, f q.node2⟩

variable {f : PathNode → PathNode}

theorem rename_injective (hf : Renaming f) : Function.Injective (rename f) := by
  intro q r h
  obtain ⟨_, _, _, _⟩ := q
  obtain ⟨_, _, _, _⟩ := r
  simpa [rename, hf.injective.eq_iff] using h

theorem isAligned_rename (hf : Renaming f) (q : Quadruple) :
    (q.rename f).isAligned = q.isAligned := by
  simp [isAligned, rename, hf.routine]

end Quadruple

def Record.rename (f : PathNode → PathNode) (r : Record) : Record :=
  ⟨r.quadruple.rename f, r.parent.map (·.rename f), r.step⟩

def Halt.rename (f : PathNode → PathNode) : Halt → Halt
  | .full => .full
  | .misaligned m => .misaligned ⟨m.quadruple.rename f, m.step⟩

def Progress.rename (f : PathNode → PathNode) (p : Progress) : Progress :=
  ⟨p.expanded.map (·.rename f), p.waiting.map (·.rename f), p.halt.map (·.rename f)⟩

def Correlation.rename (f : PathNode → PathNode) (c : Correlation) : Correlation :=
  { c with records := c.records.map (·.rename f), flowA := c.flowA.rename f
           flowB := c.flowB.rename f }

def Finding.rename (f : PathNode → PathNode) (x : Finding) : Finding :=
  { x with quadruple := x.quadruple.rename f, traceA := x.traceA.map f, traceB := x.traceB.map f }

def Engine.rename (f : PathNode → PathNode) (e : Engine) : Engine :=
  { e with flowA := e.flowA.rename f, flowB := e.flowB.rename f }

variable {f : PathNode → PathNode} {e : Engine}

namespace Engine

theorem seeds_rename (hf : Renaming f) (e : Engine) :
    (e.rename f).seeds = e.seeds.map (·.rename f) := by
  simp [seeds, rename, Buckets.get_ofList, PathGraph.sources_rename hf, List.flatMap_map,
    List.map_flatMap, List.filter_map, Function.comp_def, hf.routine, hf.node, Quadruple.rename]

theorem advanceA_rename (hf : Renaming f) (e : Engine) (q : Quadruple) :
    (e.rename f).advanceA (q.rename f) = (e.advanceA q).map (·.rename f) := by
  simp [advanceA, rename, Quadruple.rename, PathGraph.successors_rename hf, List.filter_map,
    Function.comp_def, hf.routine]

theorem advanceB_rename (hf : Renaming f) (e : Engine) (q : Quadruple) :
    (e.rename f).advanceB (q.rename f) = (e.advanceB q).map (·.rename f) := by
  simp [advanceB, rename, Quadruple.rename, PathGraph.successors_rename hf, List.filter_map,
    Function.comp_def, hf.routine]

theorem allows_rename (hf : Renaming f) (e : Engine) (q : Quadruple) (n₁ n₂ : PathNode) :
    (e.rename f).allows (q.rename f) (f n₁) (f n₂) = e.allows q n₁ n₂ := by
  simp [allows, sameCrossing, rename, Quadruple.rename, PathGraph.edge?_rename hf]

theorem joint_rename (hf : Renaming f) (e : Engine) (q : Quadruple) :
    (e.rename f).joint (q.rename f) = (e.joint q).map (·.rename f) := by
  have hA : (e.rename f).flowA.successors (q.rename f).node1 =
      (e.flowA.successors q.node1).map f := PathGraph.successors_rename hf _ _
  have hB : (e.rename f).flowB.successors (q.rename f).node2 =
      (e.flowB.successors q.node2).map f := PathGraph.successors_rename hf _ _
  have hhere : (q.rename f).node1.routine = q.node1.routine := hf.routine _
  simp only [joint, hA, hB, hhere, Buckets.get_ofList, List.flatMap_map, List.map_flatMap,
    List.filter_map, List.map_map, Function.comp_def, hf.routine, allows_rename hf]
  rfl

theorem expand_rename (hf : Renaming f) (e : Engine) (q : Quadruple) :
    (e.rename f).expandWith (e.rename f).advanceA (q.rename f) =
      (e.expandWith e.advanceA q).map fun c => (c.1.rename f, c.2) := by
  simp [expandWith, advanceA_rename hf, advanceB_rename hf, joint_rename hf, Function.comp_def]

end Engine

namespace Progress

theorem records_rename (p : Progress) : (p.rename f).records = p.records.map (·.rename f) := by
  simp [rename, records]

theorem halt_full_rename (p : Progress) :
    ((p.rename f).halt == some .full) = (p.halt == some .full) := by
  cases hp : p.halt with
  | none => simp [rename, hp]
  | some halt => cases halt <;> simp [rename, hp, Halt.rename]

theorem record_rename (hf : Renaming f) (most : Int) (parent : Option Quadruple) (p : Progress)
    (c : Quadruple × StepKind) :
    record most (parent.map (·.rename f)) (p.rename f) (c.1.rename f, c.2) =
      (record most parent p c).rename f := by
  have hhas : (p.rename f).has (c.1.rename f) = p.has c.1 := by
    simp [has, rename, List.any_map, Function.comp_def, Record.rename,
      (Quadruple.rename_injective hf).beq_eq]
  have hfull : (p.rename f).isFull most = p.isFull most := by
    simp [isFull, records_rename]
  have hhalt : (p.rename f).halt.isSome = p.halt.isSome := by simp [rename]
  unfold record
  rw [hhas, hfull, hhalt, Quadruple.isAligned_rename hf]
  split
  · rfl
  split
  · rfl
  split
  · simp [rename, Record.rename]
  · rfl

theorem recordAll_rename (hf : Renaming f) (most : Int) (parent : Option Quadruple) (p : Progress)
    (cs : List (Quadruple × StepKind)) :
    (cs.map fun c => (c.1.rename f, c.2)).foldl (record most (parent.map (·.rename f)))
      (p.rename f) = (cs.foldl (record most parent) p).rename f := by
  rw [List.foldl_map]
  exact List.foldl_hom (rename f) fun p c => record_rename hf most parent p c

theorem step_rename (hf : Renaming f) (p : Progress) :
    step (e.rename f) (e.rename f).advanceA (p.rename f) = (step e e.advanceA p).map (rename f) := by
  cases hp : p.halt with
  | some halt => simp [step, rename, hp]
  | none =>
    cases hw : p.waiting with
    | nil => simp [step, rename, hp, hw]
    | cons r rest =>
      have hp' : (p.rename f).halt = none := by simp [rename, hp]
      have hw' : (p.rename f).waiting = r.rename f :: rest.map (·.rename f) := by simp [rename, hw]
      have htaken : (p.rename f).taken (r.rename f) (rest.map (·.rename f)) =
          (p.taken r rest).rename f := by simp [taken, rename]
      rw [step_waiting _ hp hw, step_waiting _ hp' hw', htaken]
      have hexpand : (e.rename f).expandWith (e.rename f).advanceA (r.rename f).quadruple =
          (e.expandWith e.advanceA r.quadruple).map fun c => (c.1.rename f, c.2) :=
        Engine.expand_rename hf e r.quadruple
      rw [hexpand]
      exact congrArg some (recordAll_rename hf _ (some r.quadruple) _ _)

end Progress

namespace Engine

theorem start_rename (hf : Renaming f) (e : Engine) : (e.rename f).start = e.start.rename f := by
  have hseeds : (e.rename f).seeds.map (·, StepKind.seed) =
      (e.seeds.map (·, StepKind.seed)).map fun c => (c.1.rename f, c.2) := by
    simp [seeds_rename hf]
  unfold start
  rw [hseeds]
  exact Progress.recordAll_rename hf _ none ⟨[], [], none⟩ _

theorem run_rename (hf : Renaming f) (e : Engine) :
    (e.rename f).runWith (e.rename f).advanceA = (e.runWith e.advanceA).rename f := by
  have hcapacity : (e.rename f).capacity = e.capacity := by
    simp [capacity, rename, PathGraph.rename]
  unfold runWith
  rw [hcapacity, start_rename hf]
  exact (iterate_view (fun p => (Progress.step_rename hf p).symm) _ _).symm

theorem outcome_rename (hf : Renaming f) (e : Engine) :
    (e.rename f).outcome = e.outcome.rename f := by
  simp only [outcome, run_rename hf, Progress.records_rename, Progress.halt_full_rename]
  rfl

end Engine

namespace Correlation

theorem trace_rename (hf : Renaming f) (ns : List PathNode) : trace (ns.map f) = (trace ns).map f := by
  fun_induction trace ns with
  | case1 => rfl
  | case2 n => rfl
  | case3 n rest ih => simpa [trace] using ih
  | case4 n m rest hne ih => simpa [trace, hf.injective.eq_iff, hne] using ih

theorem chainIn_rename (hf : Renaming f) (rs : List Record) (q : Quadruple) :
    chainIn (rs.map (·.rename f)) (q.rename f) = (chainIn rs q).map (·.rename f) := by
  fun_induction chainIn rs q with
  | case1 => rfl
  | case2 r older hparent => simp [chainIn, Record.rename, hparent]
  | case3 r older p hparent ih => simpa [chainIn, Record.rename, hparent] using ih
  | case4 q r older hne ih =>
    simpa [chainIn, Record.rename, (Quadruple.rename_injective hf).eq_iff, hne] using ih

theorem findingOf_rename (hf : Renaming f) (c : Correlation) (back : List Record) (q : Quadruple) :
    (c.rename f).findingOf (back.map (·.rename f)) (q.rename f) =
      (c.findingOf back q).map (·.rename f) := by
  have hdescribe : (c.rename f).pairs.describe (q.rename f).source1.node (q.rename f).source2.node
      (q.rename f).node1.node (q.rename f).node2.node =
      c.pairs.describe q.source1.node q.source2.node q.node1.node q.node2.node := by
    simp [Correlation.rename, Quadruple.rename, hf.node]
  unfold findingOf
  rw [hdescribe, chainIn_rename hf]
  cases c.pairs.describe q.source1.node q.source2.node q.node1.node q.node2.node with
  | error err => rfl
  | ok t =>
    simp only [bind, Except.bind, pure, Except.pure, Except.map, Finding.rename, ← trace_rename hf,
      List.map_map, List.filter_map, List.length_map]
    rfl

theorem findings_rename (hf : Renaming f) (c : Correlation) :
    (c.rename f).findings = c.findings.map (List.map (·.rename f)) := by
  have hquadruples : (c.rename f).quadruples = c.quadruples.map (·.rename f) := by
    simp [quadruples, Correlation.rename, Record.rename, Function.comp_def]
  have hfinding (q : Quadruple) : (c.rename f).isFinding (q.rename f) = c.isFinding q := by
    simp [isFinding, Correlation.rename, Quadruple.rename, hf.node]
  have hback : (c.rename f).records.reverse = c.records.reverse.map (·.rename f) := by
    simp [Correlation.rename]
  simp only [findings, hback, hquadruples, List.filter_map, Function.comp_def, hfinding]
  exact mapM_map (findingOf_rename hf c c.records.reverse) _

theorem rename_rename (f' : PathNode → PathNode) (c : Correlation) :
    (c.rename f).rename f' = c.rename (f' ∘ f) := by
  simp [Correlation.rename, PathGraph.rename_rename, Record.rename, Quadruple.rename,
    Function.comp_def]

end Correlation

theorem Finding.rename_rename (f' : PathNode → PathNode) (x : Finding) :
    (x.rename f).rename f' = x.rename (f' ∘ f) := by
  simp [Finding.rename, Quadruple.rename]

section Bounds

variable {m : Int → Int} {g : FlowGraph} {pairs : PairConfig}

theorem PairConfig.checkedFlow_rename (h : Rebounding m) (depth : Int) (side : Side) :
    pairs.checkedFlow g (m depth) side =
      (pairs.checkedFlow g depth side).map (·.rename (PathNode.rebound m)) := by
  have hsettles : pairs.settlesFlow g (m depth) side = pairs.settlesFlow g depth side := by
    simp only [settlesFlow, Exploration.complete_rename h, Exploration.isNameable_rename,
      Exploration.settledBy_rename h.renaming]
  unfold checkedFlow
  rw [hsettles]
  split
  · rfl
  split
  · rfl
  · exact congrArg Except.ok (PathGraph.build_rename h)

/-- Bounds that allow as many calls have the same correlations. -/
theorem correlate_rename (h : Rebounding m) (config : CorrelationConfig) :
    correlate g pairs { config with depth := m config.depth } =
      (correlate g pairs config).map (·.rename (PathNode.rebound m)) := by
  unfold correlate Engine.checked
  simp only [PairConfig.checkedFlow_rename h]
  cases pairs.checkedFlow g config.depth .a with
  | error o => rfl
  | ok flowA =>
    cases pairs.checkedFlow g config.depth .b with
    | error o => rfl
    | ok flowB =>
      have hflows := Engine.outcome_rename h.renaming ⟨flowA, flowB, pairs, config⟩
      simp only [Except.map, bind, Except.bind, pure, Except.pure, Engine.checkedSolve_eq]
      exact congrArg Except.ok hflows

/-- A path node but for the bound that is written into its context. -/
def PathNode.unbound : PathNode → PathNode := rebound fun _ => 0

/-- A correlation and its findings but for the bounds that are written into contexts. -/
def Correlation.unbound (c : Correlation) : Correlation × Except Template.Failure (List Finding) :=
  (c.rename .unbound, c.findings.map (List.map (·.rename .unbound)))

theorem Correlation.unbound_rename (h : Rebounding m) (c : Correlation) :
    (c.rename (PathNode.rebound m)).unbound = c.unbound := by
  have hplain : PathNode.unbound ∘ PathNode.rebound m = PathNode.unbound := rfl
  unfold unbound
  rw [findings_rename h.renaming, rename_rename, hplain]
  cases c.findings with
  | error err => rfl
  | ok fs => simp [Except.map, Finding.rename_rename, hplain, Function.comp_def]

end Bounds
end Lockstep
