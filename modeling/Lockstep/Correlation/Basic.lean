import Lockstep.Flow.Basic
/-!
Correlated quadruples: two flows, each with the path node it started from and the one it has
reached, both of these in one routine. A record says by which rule and from which quadruple one was
first derived.
-/

set_option autoImplicit false

namespace Lockstep

/-- What two flows that cross into a routine together have to agree in. -/
inductive SyncPolicy where
  | routine | callSite
  deriving DecidableEq, Repr

def SyncPolicy.word : SyncPolicy → Text
  | .routine => "routine".toList
  | .callSite => "call-site".toList

def SyncPolicy.ofWord? (t : Text) : Option SyncPolicy :=
  [SyncPolicy.routine, .callSite].find? (·.word == t)

theorem SyncPolicy.ofWord?_word (p : SyncPolicy) : ofWord? p.word = some p := by
  cases p <;> decide

/-- At most `most` quadruples are recorded, and as many as there are if it is zero. -/
structure CorrelationConfig where
  policy : SyncPolicy := .routine
  depth : Int := 3
  most : Int := 0
  deriving DecidableEq, Repr

inductive StepKind where
  | seed | advanceA | advanceB | joint
  deriving DecidableEq, Repr

def StepKind.all : List StepKind := [.seed, .advanceA, .advanceB, .joint]

def StepKind.word : StepKind → Text
  | .seed => "seed".toList
  | .advanceA => "advance-a".toList
  | .advanceB => "advance-b".toList
  | .joint => "joint".toList

structure Quadruple where
  source1 : PathNode
  source2 : PathNode
  node1 : PathNode
  node2 : PathNode
  deriving Repr

namespace Quadruple

def indexes (q : Quadruple) : Nat × Nat × Nat × Nat :=
  (q.source1.index, q.source2.index, q.node1.index, q.node2.index)

def ends (q : Quadruple) : PathNode × PathNode × PathNode × PathNode :=
  (q.source1, q.source2, q.node1, q.node2)

theorem ends_inj (q r : Quadruple) : q.ends = r.ends ↔ q = r := by
  cases q; cases r; simp [ends]

/-- Different indexes settle most questions of equality. -/
instance : DecidableEq Quadruple := fun q r =>
  if h : q.indexes = r.indexes then decidable_of_iff _ (ends_inj q r)
  else isFalse fun e => h (e ▸ rfl)

def isAligned (q : Quadruple) : Bool := q.node1.routine == q.node2.routine

def display (q : Quadruple) : Text :=
  "Quadruple(".toList ++ q.source1.node.display ++ ", ".toList ++ q.source2.node.display ++
  " | ".toList ++ q.node1.node.display ++ ", ".toList ++ q.node2.node.display ++ [')']

end Quadruple

structure Record where
  quadruple : Quadruple
  parent : Option Quadruple
  step : StepKind
  deriving DecidableEq, Repr

end Lockstep
