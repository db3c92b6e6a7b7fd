import Lockstep.Correlation.Engine
import Lockstep.Search.Iterate
/-!
All quadruples that the rules derive. They are recorded in the order in which they are found, and
expanded in that order. Recording ends early when there are as many as are allowed, or at a
quadruple whose flows are not in one routine.
-/

set_option autoImplicit false

namespace Lockstep

/-- A quadruple that was derived out of line, and by which rule. -/
structure Misaligned where
  quadruple : Quadruple
  step : StepKind
  deriving DecidableEq, Repr

/-- Only routines whose names are texts can be named. -/
def Misaligned.message? (m : Misaligned) : Option Text := do
  let here ← m.quadruple.node1.routine.name.asText?
  let there ← m.quadruple.node2.routine.name.asText?
  return m.step.word ++ " produced misaligned quadruple ".toList ++ m.quadruple.display ++
    ": ".toList ++ here ++ " vs ".toList ++ there

/-- Why recording ended before its time. -/
inductive Halt where
  | full
  | misaligned (m : Misaligned)
  deriving DecidableEq, Repr

/-- Records that have been expanded, and those that wait for it. -/
structure Progress where
  expanded : List Record
  waiting : List Record
  halt : Option Halt
  deriving DecidableEq, Repr

namespace Progress

def records (p : Progress) : List Record := p.expanded ++ p.waiting

def has (p : Progress) (q : Quadruple) : Bool :=
  p.expanded.any (·.quadruple == q) || p.waiting.any (·.quadruple == q)

/-- No more may be recorded. A negative limit allows none at all. -/
def isFull (p : Progress) (most : Int) : Bool :=
  most != 0 && decide (most ≤ (p.records.length : Int))

def record (most : Int) (parent : Option Quadruple) (p : Progress) (c : Quadruple × StepKind) :
    Progress :=
  if p.halt.isSome || p.has c.1 then p
  else if p.isFull most then { p with halt := some .full }
  else if c.1.isAligned then { p with waiting := p.waiting ++ [⟨c.1, parent, c.2⟩] }
  else { p with halt := some (.misaligned ⟨c.1, c.2⟩) }

def step (e : Engine) (advance : Quadruple → List Quadruple) (p : Progress) : Option Progress :=
  match p.halt, p.waiting with
  | some _, _ => none
  | none, [] => none
  | none, r :: rest =>
    some ((e.expandWith advance r.quadruple).foldl (record e.config.most (some r.quadruple))
      { p with expanded := p.expanded ++ [r], waiting := rest })

end Progress

/-- The quadruples of two flows in the order in which they were recorded. -/
structure Correlation where
  records : List Record
  pairs : PairConfig
  flowA : PathGraph
  flowB : PathGraph
  truncated : Bool

namespace Engine

def start (e : Engine) : Progress :=
  (e.seeds.map (·, .seed)).foldl (Progress.record e.config.most none) ⟨[], [], none⟩

/-- More quadruples than two flows can have. -/
def capacity (e : Engine) : Nat :=
  let places := e.flowA.nodes.length * e.flowB.nodes.length
  places * places + 1

def runWith (e : Engine) (advance : Quadruple → List Quadruple) : Progress :=
  Search.iterate (Progress.step e advance) e.capacity e.start

def conclude (e : Engine) (p : Progress) : Except Misaligned Correlation :=
  match p.halt with
  | some (.misaligned m) => .error m
  | h => .ok ⟨p.records, e.pairs, e.flowA, e.flowB, h == some .full⟩

/-- All quadruples, where flow A advances in a given way. -/
def solveWith (e : Engine) (advance : Quadruple → List Quadruple) : Except Misaligned Correlation :=
  e.conclude (e.runWith advance)

def solve (e : Engine) : Except Misaligned Correlation := e.solveWith e.advanceA

/-- The seeds that are looked at: one more than may be recorded. -/
def triedSeeds (e : Engine) : List Quadruple :=
  if e.config.most = 0 then e.seeds else e.seeds.take (e.config.most.toNat + 1)

end Engine
end Lockstep
