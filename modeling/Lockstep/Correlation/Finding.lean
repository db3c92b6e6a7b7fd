import Lockstep.Correlation.Solve
/-!
What a correlation shows. The chain of a quadruple leads from its seed to it; a finding is a
quadruple whose flows have arrived at a sink pair, with the way that each flow took.
-/

set_option autoImplicit false

namespace Lockstep

structure Finding where
  quadruple : Quadruple
  traceA : List PathNode
  traceB : List PathNode
  jointSteps : Nat
  description : Text
  deriving DecidableEq, Repr

namespace Finding

def routinesA (f : Finding) : List Routine := f.traceA.map (·.routine)
def routinesB (f : Finding) : List Routine := f.traceB.map (·.routine)

end Finding

namespace Correlation

def quadruples (c : Correlation) : List Quadruple := c.records.map (·.quadruple)

def contains (c : Correlation) (q : Quadruple) : Bool := c.records.any (·.quadruple == q)

/-- The records that lead to a quadruple, among records with the latest first. -/
def chainIn : List Record → Quadruple → List Record
  | [], _ => []
  | r :: older, q =>
    if r.quadruple = q then
      match r.parent with
      | none => [r]
      | some p => chainIn older p ++ [r]
    else chainIn older q

/-- The records from the seed of a quadruple to its own; nothing if it is not recorded. -/
def chain (c : Correlation) (q : Quadruple) : List Record := chainIn c.records.reverse q

def count (c : Correlation) (k : StepKind) : Nat := (c.records.filter (·.step == k)).length

/-- Path nodes without those that repeat the one before. -/
def trace : List PathNode → List PathNode
  | [] => []
  | [n] => [n]
  | n :: m :: rest => if n = m then trace (m :: rest) else n :: trace (m :: rest)

def findingOf (c : Correlation) (back : List Record) (q : Quadruple) :
    Except Template.Failure Finding := do
  let chain := chainIn back q
  let description ← c.pairs.describe q.source1.node q.source2.node q.node1.node q.node2.node
  return {
    quadruple := q
    traceA := trace (chain.map (·.quadruple.node1))
    traceB := trace (chain.map (·.quadruple.node2))
    jointSteps := (chain.filter (·.step == .joint)).length
    description }

def isFinding (c : Correlation) (q : Quadruple) : Bool :=
  c.pairs.isSinkPair q.node1.node q.node2.node

/-- Every recorded quadruple at a sink pair, as a finding. -/
def findings (c : Correlation) : Except Template.Failure (List Finding) :=
  let back := c.records.reverse
  (c.quadruples.filter c.isFinding).mapM (c.findingOf back)

def countText (c : Correlation) (k : StepKind) : Text := k.word ++ '=' :: Text.ofNat (c.count k)

def display (c : Correlation) : Text :=
  "CorrelationResult(".toList ++ Text.ofNat c.records.length ++ " quadruples: ".toList ++
  Text.join ", ".toList (StepKind.all.map c.countText) ++
  (if c.truncated then ", truncated".toList else []) ++ [')']

end Correlation
end Lockstep
