import Lockstep.Correlation.Run
import Lockstep.Proofs.Flow.Kept
import Lockstep.Proofs.Pair.Projection
/-!
Walks of two flows through a graph. One flow moves while it stays in the routine of the other, or
both go over into one other routine at once. Such a walk is a walk of each flow by itself.
-/

set_option autoImplicit false

namespace Lockstep

def Side.pick {α : Type} : Side → α × α → α
  | .a, p => p.1
  | .b, p => p.2

/-- The flow of one side moves along an edge, neither out of a barrier nor into one, and as far as
its context allows. -/
def Moves (g : FlowGraph) (pairs : PairConfig) (side : Side) (s t : Position) : Prop :=
  ∃ e ∈ g.edges, e.source = s.node.id ∧ e.target = t.node.id ∧ t.node ∈ g.nodes ∧
    pairs.isBarrier side s.node = false ∧ pairs.isBarrier side t.node = false ∧
    s.context.along e = some t.context

/-- A source pair inside of a routine. -/
structure JointSource (g : FlowGraph) (pairs : PairConfig) (a b : FlowNode) : Prop where
  memA : a ∈ g.nodes
  memB : b ∈ g.nodes
  aligned : a.routine = b.routine
  pair : pairs.isSourcePair a b = true

/-- One step of two flows. -/
inductive PairStep (g : FlowGraph) (pairs : PairConfig) :
    Position × Position → Position × Position → Prop
  | moveA {u u' v : Position} : Moves g pairs .a u u' → u'.node.routine = v.node.routine →
      PairStep g pairs (u, v) (u', v)
  | moveB {u v v' : Position} : Moves g pairs .b v v' → v'.node.routine = u.node.routine →
      PairStep g pairs (u, v) (u, v')
  | joint {u u' v v' : Position} : Moves g pairs .a u u' → Moves g pairs .b v v' →
      u'.node.routine = v'.node.routine → u'.node.routine ≠ u.node.routine →
      PairStep g pairs (u, v) (u', v')

abbrev PairWalk (g : FlowGraph) (pairs : PairConfig) :
    Position × Position → Position × Position → Prop :=
  Relation.ReflTransGen (PairStep g pairs)

abbrev PairConfig.single (pairs : PairConfig) (g : FlowGraph) (side : Side) : FlowConfig :=
  (Projection.of pairs g side).config pairs

variable {g : FlowGraph} {pairs : PairConfig} {side : Side} {s t : Position}
  {p p' : Position × Position}

theorem flowStep_single : FlowStep g (pairs.single g side) s t ↔ Moves g pairs side s t := by
  constructor
  · intro h
    obtain ⟨e, he⟩ := h
    exact ⟨e, he.edge, he.source, he.target, he.node, he.leaves, he.enters, he.context⟩
  · intro h
    obtain ⟨e, hmem, hs, ht, hnode, hleaves, henters, hc⟩ := h
    exact ⟨e, hmem, hs, ht, hnode, hleaves, henters, hc⟩

/-- A flow that can make all the moves of another one can walk where that one walks. -/
theorem Walk.of_moves {g' : FlowGraph} {pairs' : PairConfig} {side' : Side}
    (hmoves : ∀ {u v}, Moves g pairs side u v → Moves g' pairs' side' u v)
    (hw : Walk g (pairs.single g side) s t) : Walk g' (pairs'.single g' side') s t := by
  induction hw with
  | refl => exact .refl
  | tail _ hst ih => exact ih.tail (flowStep_single.mpr (hmoves (flowStep_single.mp hst)))

theorem PairStep.walk (h : PairStep g pairs p p') (side : Side) :
    Walk g (pairs.single g side) (side.pick p) (side.pick p') := by
  cases h with
  | moveA hu _ =>
    cases side with
    | a => exact .single (flowStep_single.mpr hu)
    | b => exact .refl
  | moveB hv _ =>
    cases side with
    | a => exact .refl
    | b => exact .single (flowStep_single.mpr hv)
  | joint hu hv _ _ =>
    cases side with
    | a => exact .single (flowStep_single.mpr hu)
    | b => exact .single (flowStep_single.mpr hv)

theorem PairStep.aligned (h : PairStep g pairs p p') : p'.1.node.routine = p'.2.node.routine := by
  cases h with
  | moveA _ hr => exact hr
  | moveB _ hr => exact hr.symm
  | joint _ _ hr _ => exact hr

theorem PairWalk.aligned (h : PairWalk g pairs p p') (hp : p.1.node.routine = p.2.node.routine) :
    p'.1.node.routine = p'.2.node.routine := by
  cases h with
  | refl => exact hp
  | tail _ hst => exact hst.aligned

theorem PairWalk.walk (h : PairWalk g pairs p p') (side : Side) :
    Walk g (pairs.single g side) (side.pick p) (side.pick p') := by
  induction h with
  | refl => exact .refl
  | tail _ hst ih => exact ih.trans (hst.walk side)

end Lockstep
