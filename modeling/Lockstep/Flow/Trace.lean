import Lockstep.Flow.Basic
import Lockstep.Search.Iterate
/-!
A shortest way from a source to a path node, found by going backward from the node.
-/

set_option autoImplicit false

namespace Lockstep.PathGraph

/-- The ways to the target that have been found, the shorter ones first. Each begins with the path
node from which it goes on to the target. -/
structure Backtrack where
  reached : List PathNode
  waiting : List (List PathNode)
  result : Option (List PathNode)

namespace Backtrack

def prepend (way : List PathNode) (b : Backtrack) (n : PathNode) : Backtrack :=
  if n ∈ b.reached then b
  else { b with reached := b.reached ++ [n], waiting := b.waiting ++ [n :: way] }

/-- Looks at the way that has waited longest: it is the result if it begins with a source. -/
def step (p : PathGraph) (b : Backtrack) : Option Backtrack :=
  match b.result, b.waiting with
  | some _, _ => none
  | none, [] => none
  | none, way :: rest =>
    let b := { b with waiting := rest }
    match way with
    | [] => some b
    | first :: _ =>
      if first.isSource then some { b with result := some way }
      else some ((p.predecessors first).foldl (prepend way) b)

end Backtrack

/-- A shortest way from a source to the target, both included. -/
def traceTo (p : PathGraph) (target : PathNode) : List PathNode :=
  ((Search.iterate (Backtrack.step p) (p.nodes.length + 2) ⟨[target], [[target]], none⟩).result).getD []

end Lockstep.PathGraph
