import Lockstep.CommandLine.Run
import Std.Time.Format
/-!
The program. It looks at the files that a command names, runs the command on them, and brings what
the command leaves behind to the disk and the screen.
-/

set_option autoImplicit false

namespace Lockstep.CommandLine

/-- The words of a command that are paths. -/
def Command.paths : Command → List Text
  | .analyze a => a.graph :: a.catalogues ++ a.output.toList
  | .check graph => [graph]
  | .checkCatalogue catalogue => [catalogue]
  | .dot graph output _ => graph :: output.toList

/-- Every place that a path comes by. -/
def stages (p : Path) : List Text → List Path
  | [] => [p]
  | t :: ts => p :: stages (p.enter t) ts

def placesOf (files : Files) (written : Text) : List Path :=
  stages (Path.origin files.here written) (Path.partsOf written) ++
  match files.resolve? written with
  | none => []
  | some p => stages .root p.parts

/-- Takes up a place, if something is there. -/
def look (files : Files) (p : Path) : IO Files := do
  match ← (IO.FS.realPath (String.ofList p.display)).toBaseIO with
  | .error _ => return files
  | .ok found =>
    if ← found.isDir then return { files with folders := p :: files.folders }
    else return files.put p (← IO.FS.readBinFile found).toList

def folderNamed (name : String) : Path := Path.root.follow (Path.partsOf name.toList)

def lookAround (words : List Text) : IO Files := do
  let here := folderNamed (← IO.currentDir).toString
  let home := folderNamed ((← IO.getEnv "HOME").getD "/")
  let start : Files := { here, home }
  (words.flatMap (placesOf start)).eraseDups.foldlM look start

def store (before after : Files) : IO Unit := do
  for p in after.folders.reverse do
    IO.FS.createDirAll (String.ofList p.display)
  for (p, octets) in after.contents.reverse do
    if before.content? p ≠ some octets then
      IO.FS.writeBinFile (String.ofList p.display) ⟨octets.toArray⟩

def secondsText (milliseconds : Nat) : Text :=
  let fraction := Text.ofNat (milliseconds % 1000)
  Text.ofNat (milliseconds / 1000) ++ '.' :: List.replicate (3 - fraction.length) '0' ++
  fraction ++ ['s']

def present (o : Outcome) (verbosity : Nat) (elapsed : Text) : IO Unit := do
  let errors ← IO.getStderr
  let stamp := (← Std.Time.PlainTime.now).format "HH:mm:ss"
  errors.putStr (String.ofList o.advice)
  for l in o.log verbosity do
    errors.putStrLn (stamp ++ " " ++ String.ofList (l.display elapsed))
  IO.print (String.ofList o.screen)

def perform (i : Invocation) : IO UInt32 := do
  let sidecar := ((← IO.getEnv "DUALFLOW_GENERATE_SARIF").getD "").toList
  let words := (i.command.map Command.paths).getD []
  let before ← lookAround (if sidecar.isEmpty then words else sidecar :: words)
  let start ← IO.monoMsNow
  let o ← pure (i.run sidecar before)
  let elapsed := (← IO.monoMsNow) - start
  store before o.files
  present o i.verbosity (secondsText elapsed)
  match o.ending with
  | .code n => return n.toUInt32
  | .failed _ =>
    (← IO.getStderr).putStrLn "dualflow: the input cannot be processed"
    return 1

end Lockstep.CommandLine

open Lockstep.CommandLine in
def main (words : List String) : IO UInt32 := do
  match Invocation.read (words.map String.toList) with
  | .ok i => perform i
  | .error r =>
    IO.print (String.ofList r.screen)
    IO.eprint (String.ofList r.advice)
    return r.code.toUInt32
