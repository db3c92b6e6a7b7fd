import Lockstep.Flow.Settled
import Lockstep.Proofs.Search.Reach
/-!
Path graphs under other bounds. Path nodes may be renamed as long as they stay apart, and of a bound
only the number of calls matters that it allows. So bounds that allow as many calls have the same path
graph, discovered in the same order, but for the bound that is written into each context.
-/

set_option autoImplicit false

namespace Lockstep

/-- Keeps path nodes apart, and of each of them all that a flow asks for. -/
structure Renaming (f : PathNode → PathNode) : Prop where
  injective : Function.Injective f
  node : ∀ n, (f n).node = n.node
  isSource : ∀ n, (f n).isSource = n.isSource
  isSink : ∀ n, (f n).isSink = n.isSink

def Link.rename (f : PathNode → PathNode) (l : Link) : Link := ⟨f l.source, f l.target, l.edge⟩

def PathGraph.rename (f : PathNode → PathNode) (p : PathGraph) : PathGraph :=
  { p with nodes := p.nodes.map f, links := p.links.map (·.rename f) }

def Exploration.rename (f : PathNode → PathNode) (x : Exploration) : Exploration :=
  ⟨x.visited.map f, x.waiting.map f, x.links.map (·.rename f)⟩

variable {f f' : PathNode → PathNode} {n k : PathNode} {e : FlowEdge}

theorem Renaming.routine (hf : Renaming f) (n : PathNode) : (f n).routine = n.routine :=
  congrArg FlowNode.routine (hf.node n)

theorem Renaming.contains_map (hf : Renaming f) (ns : List PathNode) (n : PathNode) :
    (ns.map f).contains (f n) = ns.contains n := by
  rw [Bool.eq_iff_iff, List.contains_iff_mem, List.contains_iff_mem,
    List.mem_map_of_injective hf.injective]

namespace PathGraph

theorem rename_rename (p : PathGraph) : (p.rename f).rename f' = p.rename (f' ∘ f) := by
  simp [rename, Link.rename]

theorem sources_rename (hf : Renaming f) (p : PathGraph) :
    (p.rename f).sources = p.sources.map f := by
  simp [sources, rename, List.filter_map, Function.comp_def, hf.isSource]

theorem successors_rename (hf : Renaming f) (p : PathGraph) (n : PathNode) :
    (p.rename f).successors (f n) = (p.successors n).map f := by
  simp [successors, rename, Link.rename, List.filter_map, Function.comp_def, hf.injective.beq_eq]

theorem edge?_rename (hf : Renaming f) (p : PathGraph) (n k : PathNode) :
    (p.rename f).edge? (f n) (f k) = p.edge? n k := by
  simp [edge?, rename, Link.rename, List.find?_map, Function.comp_def, hf.injective.beq_eq]

end PathGraph

namespace Exploration

@[simp] theorem nodes_rename (x : Exploration) : (x.rename f).nodes = x.nodes.map f := by
  simp [rename, nodes]

@[simp] theorem links_rename (x : Exploration) :
    (x.rename f).links = x.links.map (·.rename f) := rfl

theorem link_rename (hf : Renaming f) (x : Exploration) :
    (x.rename f).link (f n) (f k) e = (x.link n k e).rename f := by
  have hany : ((x.rename f).links.any fun l => l.source == f n && l.target == f k) =
      x.links.any fun l => l.source == n && l.target == k := by
    simp [Link.rename, List.any_map, Function.comp_def, hf.injective.beq_eq]
  unfold link
  rw [hany]
  split
  · rfl
  · simp [rename, Link.rename]

theorem alive_rename (hf : Renaming f) (x : Exploration) :
    (x.rename f).alive = x.alive.map f := by
  have hsinks : (x.nodes.map f).filter (·.isSink) = (x.nodes.filter (·.isSink)).map f := by
    simp [List.filter_map, Function.comp_def, hf.isSink]
  unfold alive
  rw [nodes_rename, hsinks, List.length_map]
  refine Search.closure_map hf.injective (fun n => ?_) _ _
  simp [Link.rename, List.filter_map, Function.comp_def, hf.injective.beq_eq]

theorem prune_rename (hf : Renaming f) (tag : FlowTag) (x : Exploration) :
    (x.rename f).prune tag = (x.prune tag).rename f := by
  simp only [prune, alive_rename hf, nodes_rename, links_rename, PathGraph.rename, Link.rename,
    List.length_map, List.filter_map, Function.comp_def, hf.contains_map]

end Exploration

theorem pushBounded_congr {α : Type} {b b' : Int} (h : b.toNat = b'.toNat) (xs : List α) (x : α) :
    pushBounded b xs x = pushBounded b' xs x := by
  have hdrop : (((xs.length : Int) + 1 - b).toNat = ((xs.length : Int) + 1 - b').toNat) ∨
      (xs.length + 1 ≤ ((xs.length : Int) + 1 - b).toNat ∧
        xs.length + 1 ≤ ((xs.length : Int) + 1 - b').toNat) := by omega
  unfold pushBounded
  rcases hdrop with heq | ⟨hb, hb'⟩
  · rw [heq]
  · rw [List.drop_eq_nil_of_le (by simpa using hb), List.drop_eq_nil_of_le (by simpa using hb')]

/-- A change of bounds that keeps them apart and lets each of them allow as many calls as before. -/
structure Rebounding (m : Int → Int) : Prop where
  injective : Function.Injective m
  toNat : ∀ b, (m b).toNat = b.toNat

def CallString.rebound (m : Int → Int) (c : CallString) : CallString :=
  { c with bound := m c.bound }

def PathNode.rebound (m : Int → Int) (n : PathNode) : PathNode :=
  { n with context := n.context.rebound m }

variable {m : Int → Int} {tag : FlowTag} {g : FlowGraph} {cfg : FlowConfig} {depth : Int}
  {c : CallString} {node : FlowNode}

theorem Rebounding.renaming (h : Rebounding m) : Renaming (PathNode.rebound m) where
  injective := by
    intro n k heq
    obtain ⟨_, _, _, ⟨_, _, _⟩, _, _⟩ := n
    obtain ⟨_, _, _, ⟨_, _, _⟩, _, _⟩ := k
    simp only [PathNode.rebound, CallString.rebound, PathNode.mk.injEq, CallString.mk.injEq] at heq ⊢
    simpa [h.injective.eq_iff] using heq
  node _ := rfl
  isSource _ := rfl
  isSink _ := rfl

theorem Rebounding.along (h : Rebounding m) (c : CallString) (e : FlowEdge) :
    (c.rebound m).along e = (c.along e).map (·.rebound m) := by
  unfold CallString.along CallString.step
  cases e.kind with
  | internal => rfl
  | call =>
    simp [CallString.rebound, CallString.extend, pushBounded_congr (h.toNat c.bound)]
  | «return» =>
    unfold CallString.closeCall
    simp only [CallString.rebound]
    split
    · rfl
    · split <;> rfl
  | jump => rfl

namespace Exploration

theorem start_rename (m : Int → Int) : start tag cfg (m depth) g =
    (start tag cfg depth g).rename (PathNode.rebound m) := by
  simp only [start, rename, List.map_nil, Exploration.mk.injEq, true_and, and_true]
  apply List.ext_getElem <;> simp [discover, PathNode.rebound, CallString.rebound, CallString.empty]

theorem reach_rename (h : Rebounding m) (x : Exploration) :
    reach tag cfg (n.rebound m) e node (c.rebound m) (x.rename (PathNode.rebound m)) =
      (reach tag cfg n e node c x).rename (PathNode.rebound m) := by
  have hfind : (x.nodes.map (PathNode.rebound m)).find? (·.isAt node.id (c.rebound m).sites) =
      (x.nodes.find? (·.isAt node.id c.sites)).map (PathNode.rebound m) := List.find?_map
  unfold reach
  rw [nodes_rename, hfind]
  cases x.nodes.find? (·.isAt node.id c.sites) with
  | some k => exact link_rename h.renaming x
  | none =>
    rw [← link_rename h.renaming]
    simp [rename, discover, PathNode.rebound]

theorem follow_rename (h : Rebounding m) (x : Exploration) :
    follow tag g cfg (n.rebound m) (x.rename (PathNode.rebound m)) e =
      (follow tag g cfg n x e).rename (PathNode.rebound m) := by
  have hcontext : (n.rebound m).context.along e = (n.context.along e).map (·.rebound m) :=
    h.along n.context e
  unfold follow
  rw [hcontext]
  cases g.findNode? e.target with
  | none => rfl
  | some node =>
    by_cases hb : cfg.isBarrier node = true
    · simp [hb]
    · cases n.context.along e with
      | none => simp
      | some c => simpa [hb] using reach_rename h x

theorem expand_rename (h : Rebounding m) (x : Exploration) :
    expand tag g cfg (n.rebound m) (x.rename (PathNode.rebound m)) =
      (expand tag g cfg n x).rename (PathNode.rebound m) := by
  have hnode : (n.rebound m).node = n.node := rfl
  unfold expand
  rw [hnode]
  split
  · rfl
  · exact List.foldl_hom (rename (PathNode.rebound m)) fun x _ => follow_rename h x

theorem visit_rename (h : Rebounding m) (x : Exploration) :
    visit tag g cfg (x.rename (PathNode.rebound m)) =
      (visit tag g cfg x).map (rename (PathNode.rebound m)) := by
  cases hw : x.waiting with
  | nil => simp [visit, rename, hw]
  | cons n rest =>
    have hmoved : (⟨x.visited.map (PathNode.rebound m) ++ [n.rebound m],
        rest.map (PathNode.rebound m), x.links.map (·.rename (PathNode.rebound m))⟩ : Exploration) =
        rename (PathNode.rebound m) ⟨x.visited ++ [n], rest, x.links⟩ := by simp [rename]
    simp only [visit, rename, hw, List.map_cons, Option.map_some]
    rw [hmoved, expand_rename h]
    rfl

theorem complete_rename (h : Rebounding m) : complete tag g cfg (m depth) =
    (complete tag g cfg depth).rename (PathNode.rebound m) := by
  have hmagnitude : magnitude g (m depth) = magnitude g depth := by simp [magnitude, h.toNat]
  unfold complete
  rw [Search.exhaust_eq_iterate, Search.exhaust_eq_iterate, hmagnitude, start_rename]
  exact (Search.iterate_view (fun x => (visit_rename h x).symm) _ _).symm

theorem isNameable_rename (m : Int → Int) (x : Exploration) :
    (x.rename (PathNode.rebound m)).isNameable = x.isNameable := by
  simp [isNameable, List.all_map, Function.comp_def, PathNode.rebound, CallString.rebound]

theorem settledBy_rename (hf : Renaming f) (barrier : FlowNode → Option Bool) (x : Exploration) :
    (x.rename f).settledBy g barrier = x.settledBy g barrier := by
  simp [settledBy, List.all_map, Function.comp_def, hf.node]

end Exploration

theorem PathGraph.build_rename (h : Rebounding m) : build tag g cfg (m depth) =
    (build tag g cfg depth).rename (PathNode.rebound m) := by
  rw [build, Exploration.complete_rename h, Exploration.prune_rename h.renaming]
  rfl

end Lockstep
