import Lockstep.CommandLine.Stop
import Lockstep.Report.Render
import Lockstep.Text.Utf8
/-!
Where a command writes: to the screen or to a file. A file is emptied, and the folders on the way to
it are made, before there is anything to write; the text comes when the file is closed. A log of
all findings may be saved beside a report.
-/

set_option autoImplicit false

namespace Lockstep.CommandLine

inductive Output where
  | screen
  | file (p : Path)
  deriving DecidableEq, Repr

namespace Output

/-- A minus sign stands for the screen. -/
def prepare (files : Files) : Option Text → Except Stop (Output × Files)
  | none => .ok (.screen, files)
  | some ['-'] => .ok (.screen, files)
  | some written => match files.resolve? written with
    | none => .error (.failed .home)
    | some p => match files.makeFolder p.parent with
      | .error e => .error (.ofFile e)
      | .ok files => match files.clear p p.display with
        | .error e => .error (.ofFile e)
        | .ok files => .ok (.file p, files)

def close (o : Output) (text : Text) (files : Files) : Files :=
  match o with
  | .screen => files
  | .file p => files.overwrite p (Text.Utf8.encode text)

def shown (o : Output) (text : Text) : Text :=
  match o with
  | .screen => text
  | .file _ => []

end Output

def savedLine (written : Text) : LogLine where
  level := .info
  source := .report
  message := "SARIF written to ".toList ++ written

/-- Saves the log of all findings, if a file is named for it. -/
def saveSidecar (sidecar : Text) (batches : List Batch) (files : Files) :
    Except FileError (Files × List LogLine) :=
  if sidecar.isEmpty then .ok (files, [])
  else match files.save sidecar (Text.Utf8.encode (Batch.sidecar batches)) with
    | .error e => .error e
    | .ok files => .ok (files, [savedLine sidecar])

/-- What there is after a report and the log beside it have been written. -/
structure Reported where
  total : Nat
  files : Files
  lines : List LogLine

/-- Writes a report of all batches, and then saves the log of all findings. The text is there also if
the log cannot be saved. -/
def writeReports (format : ReportFormat) (sidecar : Text) (batches : List Batch) (files : Files) :
    Text × Except FileError Reported :=
  (Batch.render format batches,
    match saveSidecar sidecar batches files with
    | .error e => .error e
    | .ok (files, lines) => .ok ⟨Batch.total batches, files, lines⟩)

end Lockstep.CommandLine
