import Lockstep.Text.Basic
/-!
Lines of a log. A line has a level and the part of the program that it comes from; how much of the
log is shown depends on how often more of it was asked for.
-/

set_option autoImplicit false

namespace Lockstep

inductive LogLevel where
  | debug | info | warning | error
  deriving DecidableEq, Repr

namespace LogLevel

def rank : LogLevel → Nat
  | .debug => 0
  | .info => 1
  | .warning => 2
  | .error => 3

/-- Five characters, whatever the level. -/
def label : LogLevel → Text
  | .debug => "DEBUG".toList
  | .info => "INFO ".toList
  | .warning => "WARNI".toList
  | .error => "ERROR".toList

theorem label_length (l : LogLevel) : l.label.length = 5 := by cases l <;> rfl

/-- The lowest level that is shown. -/
def threshold : Nat → LogLevel
  | 0 => .warning
  | 1 => .info
  | _ => .debug

end LogLevel

inductive LogSource where
  | program | flow | correlation | report
  deriving DecidableEq, Repr

def LogSource.name : LogSource → Text
  | .program => "dualflow".toList
  | .flow => "dualflow.path_graph".toList
  | .correlation => "dualflow.correlation".toList
  | .report => "dualflow.report".toList

/-- A line that is `timed` ends with the time that the work took. -/
structure LogLine where
  level : LogLevel
  source : LogSource
  message : Text
  timed : Bool := false
  deriving DecidableEq, Repr

namespace LogLine

def display (elapsed : Text) (l : LogLine) : Text :=
  '[' :: l.level.label ++ "] ".toList ++ l.source.name ++ ": ".toList ++ l.message ++
  (if l.timed then " in ".toList ++ elapsed else [])

def isShown (verbosity : Nat) (l : LogLine) : Bool :=
  decide ((LogLevel.threshold verbosity).rank ≤ l.level.rank)

/-- Who asks for more sees no less. -/
theorem isShown_succ {n : Nat} {l : LogLine} (h : l.isShown n = true) : l.isShown (n + 1) = true := by
  match n with
  | 0 => cases hl : l.level <;> simp_all [isShown, LogLevel.threshold, LogLevel.rank]
  | 1 => simp [isShown, LogLevel.threshold, LogLevel.rank]
  | n + 2 => simp [isShown, LogLevel.threshold, LogLevel.rank]

end LogLine
end Lockstep
