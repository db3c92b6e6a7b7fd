import Mathlib.Data.List.Nodup
import Mathlib.Data.List.ProdSigma
import Lockstep.Pair.Table
import Lockstep.Proofs.Correlation.Rules
import Lockstep.Proofs.Flow.Kept
/-!
The order in which quadruples are derived. Partners are looked up by their routine, but what comes of
it is what two loops, one inside of the other, would come upon: the same quadruples in the same order,
and none of them twice. It is the order in which they are recorded and reported.
-/

set_option autoImplicit false

namespace Lockstep

section Loops

variable {α β γ : Type}

/-- A loop that passes over some things is one that finds nothing there. -/
theorem flatMap_filter (xs : List α) (keep : α → Bool) (f : α → List β) :
    (xs.filter keep).flatMap f = xs.flatMap fun x => if keep x then f x else [] := by
  induction xs with
  | nil => rfl
  | cons x xs ih =>
    cases hx : keep x with
    | true => simp [hx, ih]
    | false => simp [hx, ih]

/-- Two loops, of which the inner one looks only at what fits, come upon the pairs that fit. -/
theorem flatMap_map_filter (xs : List α) (ys : List β) (fits : α → β → Bool) (f : α × β → γ) :
    (xs.flatMap fun x => (ys.filter (fits x)).map fun y => f (x, y)) =
      ((xs ×ˢ ys).filter fun p => fits p.1 p.2).map f := by
  induction xs with
  | nil => rfl
  | cons x xs ih =>
    rw [List.flatMap_cons, ih, List.product_cons, List.filter_append, List.map_append,
      List.filter_map, List.map_map]
    rfl

theorem nodup_loops {xs : List α} {ys : List β} (hxs : xs.Nodup) (hys : ys.Nodup)
    (fits : α × β → Bool) {f : α × β → γ} (hf : Function.Injective f) :
    (((xs ×ˢ ys).filter fits).map f).Nodup :=
  ((hxs.product hys).filter _).map hf

end Loops

/-- Two flows that start. -/
def Quadruple.start (n : PathNode × PathNode) : Quadruple := ⟨n.1, n.2, n.1, n.2⟩

/-- Two flows that have come to other path nodes. -/
def Quadruple.move (q : Quadruple) (n : PathNode × PathNode) : Quadruple :=
  { q with node1 := n.1, node2 := n.2 }

theorem Quadruple.start_injective : Function.Injective start := fun _ _ h =>
  Prod.ext (congrArg node1 h) (congrArg node2 h)

theorem Quadruple.move_injective (q : Quadruple) : Function.Injective q.move := fun _ _ h =>
  Prod.ext (congrArg node1 h) (congrArg node2 h)

namespace Engine

variable {e : Engine} {q : Quadruple}

/-- Two path nodes in one routine that are declared as a joint source. -/
def starts (e : Engine) (a b : PathNode) : Bool :=
  a.routine == b.routine && e.pairs.isSourcePair a.node b.node

/-- Two path nodes in one routine, which is another one than that of the quadruple; under the policy
of call sites they have to be entered by the same crossing. -/
def joins (e : Engine) (q : Quadruple) (n₁ n₂ : PathNode) : Bool :=
  n₁.routine == n₂.routine && n₁.routine != q.node1.routine &&
    (e.config.policy != .callSite || e.sameCrossing q n₁ n₂)

theorem allows_eq (e : Engine) (q : Quadruple) (n₁ n₂ : PathNode) :
    e.allows q n₁ n₂ = (e.config.policy != .callSite || e.sameCrossing q n₁ n₂) := by
  unfold allows
  cases e.config.policy <;> rfl

theorem seeds_eq_loops (e : Engine) : e.seeds =
    ((e.flowA.sources ×ˢ e.flowB.sources).filter fun n => e.starts n.1 n.2).map .start := by
  rw [← flatMap_map_filter, seeds]
  refine congrArg (List.flatMap · _) (funext fun a => ?_)
  rw [Buckets.get_ofList, List.filter_filter]
  refine congrArg (List.map _) (List.filter_congr fun b _ => ?_)
  rw [starts, Bool.beq_comm, Bool.and_comm]

theorem joint_eq_loops (e : Engine) (q : Quadruple) : e.joint q =
    ((e.flowA.successors q.node1 ×ˢ e.flowB.successors q.node2).filter
      fun n => e.joins q n.1 n.2).map q.move := by
  rw [← flatMap_map_filter, joint, flatMap_filter]
  refine congrArg (List.flatMap · _) (funext fun n₁ => ?_)
  by_cases hleaves : n₁.routine = q.node1.routine
  · -- what stays in the routine is passed over by the one and fits nothing in the other
    have hnone : ∀ n₂ ∈ e.flowB.successors q.node2, ¬ e.joins q n₁ n₂ = true := by
      simp [joins, hleaves]
    rw [List.filter_eq_nil_iff.mpr hnone]
    simp [hleaves]
  · rw [if_pos (bne_iff_ne.mpr hleaves), Buckets.get_ofList, List.filter_filter, List.filter_filter]
    refine congrArg (List.map _) (List.filter_congr fun n₂ _ => ?_)
    have hbeq : (n₁.routine == n₂.routine) = (n₂.routine == n₁.routine) := Bool.beq_comm
    rw [allows_eq, joins, hbeq]
    by_cases htogether : n₂.routine = n₁.routine
    · rw [htogether, beq_self_eq_true, Bool.true_and, Bool.and_true, Bool.and_comm]
    · rw [beq_eq_false_iff_ne.mpr htogether, Bool.false_and, Bool.and_false, Bool.false_and,
        Bool.false_and]

/-- Looking partners up by their routine comes to the same as two loops over all of them, in the same
order and with nothing twice, for the seeds and for the joint steps of every quadruple. -/
theorem indexed_eq_loops {gA gB : FlowGraph} (hgA : gA.Built) (hgB : gB.Built) (tagA tagB : FlowTag)
    (cfgA cfgB : FlowConfig) (depthA depthB : Int) (pairs : PairConfig)
    (config : CorrelationConfig) :
    let e : Engine := ⟨.build tagA gA cfgA depthA, .build tagB gB cfgB depthB, pairs, config⟩
    (e.seeds =
        ((e.flowA.sources ×ˢ e.flowB.sources).filter fun n => e.starts n.1 n.2).map .start ∧
      e.seeds.Nodup) ∧
    ∀ q : Quadruple,
      e.joint q = ((e.flowA.successors q.node1 ×ˢ e.flowB.successors q.node2).filter
        fun n => e.joins q n.1 n.2).map q.move ∧
      (e.joint q).Nodup := by
  intro e
  have hsourcesA : e.flowA.sources.Nodup := (PathGraph.nodup_nodes_build hgA.valid).filter _
  have hsourcesB : e.flowB.sources.Nodup := (PathGraph.nodup_nodes_build hgB.valid).filter _
  refine ⟨⟨e.seeds_eq_loops, ?_⟩, fun q => ⟨e.joint_eq_loops q, ?_⟩⟩
  · rw [seeds_eq_loops]
    exact nodup_loops hsourcesA hsourcesB _ Quadruple.start_injective
  · have hA : (e.flowA.successors q.node1).Nodup := PathGraph.nodup_successors_build hgA.valid
    have hB : (e.flowB.successors q.node2).Nodup := PathGraph.nodup_successors_build hgB.valid
    rw [joint_eq_loops]
    exact nodup_loops hA hB _ q.move_injective

/-- Of the four pairs of two sources two are declared, and from each of them both flows go into the
routine that is called, through one call site. -/
theorem indexed_eq_loops_sample :
    let cfg := FlowConfig.ofIds [['s'], ['t']] [['k'], ['l']] []
    let pairs := PairTable.config { sources := [(['t'], ['s']), (['s'], ['t'])] }
    let e : Engine := ⟨.build ⟨['A'], 0⟩ .sample cfg 1, .build ⟨['B'], 0⟩ .sample cfg 1, pairs,
      { policy := .callSite }⟩
    FlowGraph.sample.Built ∧ (e.flowA.sources ×ˢ e.flowB.sources).length = 4 ∧
      e.seeds.map (fun q => (q.node1.node.id, q.node2.node.id)) = [(['s'], ['t']), (['t'], ['s'])] ∧
      e.seeds =
        ((e.flowA.sources ×ˢ e.flowB.sources).filter fun n => e.starts n.1 n.2).map .start ∧
      ∀ q ∈ e.seeds, (e.joint q).length = 1 ∧
        e.joint q = ((e.flowA.successors q.node1 ×ˢ e.flowB.successors q.node2).filter
          fun n => e.joins q n.1 n.2).map q.move ∧ (e.joint q).Nodup := by
  intro cfg pairs e
  obtain ⟨⟨hseeds, -⟩, hjoint⟩ := indexed_eq_loops FlowGraph.built_sample FlowGraph.built_sample
    ⟨['A'], 0⟩ ⟨['B'], 0⟩ cfg cfg 1 1 pairs { policy := .callSite }
  have hlength : ∀ q ∈ e.seeds, (e.joint q).length = 1 := by decide
  exact ⟨FlowGraph.built_sample, by decide, by decide, hseeds, fun q hq => ⟨hlength q hq, hjoint q⟩⟩

end Engine
end Lockstep
