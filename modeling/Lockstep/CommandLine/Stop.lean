import Lockstep.Catalogue.Fault
import Lockstep.Correlation.Run
import Lockstep.Files.Basic
import Lockstep.Graph.Dot
import Lockstep.Log.Basic
/-!
Why a command ends early, and computations that log, may stop, and write nothing.
-/

set_option autoImplicit false

namespace Lockstep.CommandLine

/-- A failure that is not reported as a mistake in the input. -/
inductive Failure where
  /-- A graph has an infinite number where a whole one is wanted. -/
  | infinite
  | pattern (f : Pattern.Fault)
  | template (f : Template.Failure)
  | obstacle (o : Obstacle)
  | drawing (f : Dot.Fault)
  /-- A path starts in the home of someone unknown. -/
  | home
  deriving Repr

inductive Stop where
  | reported (message : Text)
  | failed (f : Failure)
  deriving Repr

def Stop.ofFile (e : FileError) : Stop := .reported ("I/O error: ".toList ++ e.message)

abbrev Logged := ExceptT Stop (StateM (List LogLine))

namespace Logged

variable {α : Type}

def lines (ls : List LogLine) : Logged Unit := modify (· ++ ls)

def line (l : LogLine) : Logged Unit := lines [l]

def note (message : Text) : Logged Unit := line ⟨.info, .program, message, false⟩

def ofFile : Except FileError α → Logged α
  | .ok a => pure a
  | .error e => throw (.ofFile e)

/-- The result, and the lines up to it. -/
def outcome (x : Logged α) : Except Stop α × List LogLine := x.run.run []

end Logged
end Lockstep.CommandLine
