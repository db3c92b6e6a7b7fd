import Lockstep.Search.Iterate
/-!
What can be reached from some things by a step to any of several others. Things are visited in the
order in which they were found, each of them once.
-/

set_option autoImplicit false

namespace Lockstep.Search

/-- What has been visited, and what has been found and still waits. -/
structure Frontier (α : Type) where
  visited : List α
  waiting : List α

namespace Frontier

variable {α : Type} [DecidableEq α]

def found (f : Frontier α) : List α := f.visited ++ f.waiting

def add (f : Frontier α) (x : α) : Frontier α :=
  if x ∈ f.found then f else { f with waiting := f.waiting ++ [x] }

def visit (next : α → List α) (f : Frontier α) : Option (Frontier α) :=
  match f.waiting with
  | [] => none
  | x :: rest => some ((next x).foldl add ⟨f.visited ++ [x], rest⟩)

end Frontier

/-- All that can be reached from `start` in a world of at most `bound` things. -/
def closure {α : Type} [DecidableEq α] (next : α → List α) (bound : Nat) (start : List α) : List α :=
  (iterate (Frontier.visit next) bound ⟨[], start⟩).found

end Lockstep.Search
