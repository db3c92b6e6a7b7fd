import Lockstep.Catalogue.Matcher
import Lockstep.Catalogue.Place
import Lockstep.Pair.Basic
import Lockstep.Report.Severity
import Lockstep.Template.Render
/-!
Catalogues: named declarations of pairs by rules. Two nodes are a source pair if some source rule
holds of them, and so with sink pairs and barriers. The message is a template for the text of a
finding.
-/

set_option autoImplicit false

namespace Lockstep

structure Catalogue where
  name : Text
  description : Text := []
  message : Text := []
  severity : Severity := .warning
  sourceRules : List PairRule := []
  sinkRules : List PairRule := []
  barriers : List BarrierRule := []
  loc : SourceLoc := { }

namespace Catalogue

def barrierApplies : Side → BarrierSide → Bool
  | .a, .second => false
  | .b, .first => false
  | _, _ => true

def pairHolds (rules : List PairRule) (a b : FlowNode) : Option Bool :=
  someHolds () (rules.map fun r _ => r.matches? a b)

def barrierHolds (c : Catalogue) (s : Side) (n : FlowNode) : Option Bool :=
  someHolds n ((c.barriers.filter fun b => barrierApplies s b.side).map fun b => b.matcher.matches?)

def describe (c : Catalogue) (source1 source2 sink1 sink2 : FlowNode) :
    Except Template.Failure Text :=
  if c.message.isEmpty then .ok (plainDescription source1 source2 sink1 sink2)
  else Template.render c.message ⟨source1, source2, sink1, sink2⟩

def config (c : Catalogue) : PairConfig where
  sourcePair := pairHolds c.sourceRules
  sinkPair := pairHolds c.sinkRules
  barrier := c.barrierHolds
  describe := c.describe

end Catalogue
end Lockstep
