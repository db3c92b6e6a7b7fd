import Lockstep.Report.Entry
import Lockstep.Report.Sarif
/-!
Reports in each of the formats.
-/

set_option autoImplicit false

namespace Lockstep.Batch

def render (format : ReportFormat) (bs : List Batch) : Text :=
  match format with
  | .text => plain bs
  | .json => (toJson bs).layout ++ ['\n']
  | .sarif => (sarif bs).layout ++ ['\n']

/-- The log that may be written beside a report of any format. -/
def sidecar (bs : List Batch) : Text := (sarif bs).layout

end Lockstep.Batch
