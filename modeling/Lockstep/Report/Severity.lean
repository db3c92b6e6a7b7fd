import Lockstep.Text.Blank
import Lockstep.Text.Case
/-!
How grave a finding is.
-/

set_option autoImplicit false

namespace Lockstep

inductive Severity where
  | error | warning | note
  deriving DecidableEq, Repr

namespace Severity

def all : List Severity := [.error, .warning, .note]

def label : Severity → Text
  | .error => "error".toList
  | .warning => "warning".toList
  | .note => "note".toList

def ofLabel? (t : Text) : Option Severity := all.find? (·.label == t)

theorem ofLabel?_label (s : Severity) : ofLabel? s.label = some s := by cases s <;> decide

/-- The severity of a label in any case, white space around it aside; what is none is a warning. -/
def ofText (t : Text) : Severity :=
  (ofLabel? (Text.lowered (Text.trimBlank t))).getD .warning

end Severity
end Lockstep
