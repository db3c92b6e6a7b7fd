import Lockstep.Flow.CallString
import Lockstep.Pattern.Search
/-!
Matchers of nodes and rules for pairs of nodes. A matcher holds of a node if each of its tests does;
the tests are tried in a fixed order up to the first that fails. To search in a label that is no
text is a question without an answer.
-/

set_option autoImplicit false

namespace Lockstep

/-- Whether all tests hold, tried in order up to the first that does not. -/
def allHold {α : Type} (x : α) : List (α → Option Bool) → Option Bool
  | [] => some true
  | t :: ts => match t x with
    | some true => allHold x ts
    | answer => answer

/-- Whether some test holds, tried in order up to the first that does. -/
def someHolds {α : Type} (x : α) : List (α → Option Bool) → Option Bool
  | [] => some false
  | t :: ts => match t x with
    | some false => someHolds x ts
    | answer => answer

structure Matcher where
  id : Option Text := none
  label : Option Text := none
  labelMatch : Option Pattern := none
  kind : Option NodeKind := none
  routine : Option Text := none
  callee : Option Text := none
  argIndex : Option Int := none

namespace Matcher

/-- A test that is not given holds. -/
def given {α : Type} (want : Option α) (test : α → FlowNode → Option Bool) (n : FlowNode) :
    Option Bool :=
  match want with
  | none => some true
  | some w => test w n

def searchLabel (p : Pattern) (n : FlowNode) : Option Bool := n.label.asText?.map p.occursIn

def tests (m : Matcher) : List (FlowNode → Option Bool) := [
  given m.id fun t n => some (n.id == t),
  given m.label fun t n => some (n.label == .text t),
  given m.labelMatch searchLabel,
  given m.kind fun k n => some (n.kind == k),
  given m.routine fun t n => some (n.routine.name == .text t),
  given m.callee fun t n => some (n.callee == .text t),
  given m.argIndex fun i n => some (n.argIndex == i)]

def matches? (m : Matcher) (n : FlowNode) : Option Bool := allHold n m.tests

end Matcher

/-- A pair of groups, with what relates the two nodes. -/
structure PairRule where
  first : Matcher
  second : Matcher
  sameCall : Bool := false
  distinct : Bool := false

namespace PairRule

/-- Both nodes belong to one call. -/
def shareCall (a b : FlowNode) : Bool :=
  a.callSite != .null && sameSite a.callSite.key b.callSite.key

def matches? (r : PairRule) (a b : FlowNode) : Option Bool :=
  if r.distinct && a.id == b.id then some false
  else if r.sameCall && !shareCall a b then some false
  else allHold () [fun _ => r.first.matches? a, fun _ => r.second.matches? b]

end PairRule

inductive BarrierSide where
  | first | second | both
  deriving DecidableEq, Repr

namespace BarrierSide

def word : BarrierSide → Text
  | .first => "first".toList
  | .second => "second".toList
  | .both => "both".toList

def ofWord? (t : Text) : Option BarrierSide := [first, .second, .both].find? (·.word == t)

theorem ofWord?_word (s : BarrierSide) : ofWord? s.word = some s := by cases s <;> decide

end BarrierSide

structure BarrierRule where
  side : BarrierSide
  matcher : Matcher

end Lockstep
