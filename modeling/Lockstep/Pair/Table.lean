import Lockstep.Pair.Basic
/-!
Declarations that list their pairs and barriers by node identifiers.
-/

set_option autoImplicit false

namespace Lockstep

structure PairTable where
  sources : List (Text × Text) := []
  sinks : List (Text × Text) := []
  barriersA : List Text := []
  barriersB : List Text := []
  deriving DecidableEq, Repr

namespace PairTable

def addSource (t : PairTable) (a b : Text) : PairTable := { t with sources := (a, b) :: t.sources }
def addSink (t : PairTable) (a b : Text) : PairTable := { t with sinks := (a, b) :: t.sinks }
def addBarrierA (t : PairTable) (id : Text) : PairTable := { t with barriersA := id :: t.barriersA }
def addBarrierB (t : PairTable) (id : Text) : PairTable := { t with barriersB := id :: t.barriersB }

def barriers (t : PairTable) : Side → List Text
  | .a => t.barriersA
  | .b => t.barriersB

def config (t : PairTable) : PairConfig where
  sourcePair a b := some (t.sources.contains (a.id, b.id))
  sinkPair a b := some (t.sinks.contains (a.id, b.id))
  barrier s n := some ((t.barriers s).contains n.id)
  describe s₁ s₂ k₁ k₂ := .ok (plainDescription s₁ s₂ k₁ k₂)

@[simp] theorem isSourcePair_config (t : PairTable) (a b : FlowNode) :
    t.config.isSourcePair a b = t.sources.contains (a.id, b.id) := by
  simp [config, PairConfig.isSourcePair]

@[simp] theorem isSinkPair_config (t : PairTable) (a b : FlowNode) :
    t.config.isSinkPair a b = t.sinks.contains (a.id, b.id) := by
  simp [config, PairConfig.isSinkPair]

@[simp] theorem isBarrier_config (t : PairTable) (s : Side) (n : FlowNode) :
    t.config.isBarrier s n = (t.barriers s).contains n.id := by
  simp [config, PairConfig.isBarrier]

/-- A pair that is listed twice counts once. -/
def display (t : PairTable) : Text :=
  "PairTable(source_pairs=".toList ++ Text.ofNat t.sources.eraseDups.length ++
  ", sink_pairs=".toList ++ Text.ofNat t.sinks.eraseDups.length ++ [')']

end PairTable
end Lockstep
