import Lockstep.Catalogue.Reader
import Lockstep.CommandLine.Stop
import Lockstep.Graph.Document
/-!
Loading the graph and the catalogues of a command. A file that is named has to exist before anything
is read from it.
-/

set_option autoImplicit false

namespace Lockstep.CommandLine

def locate (files : Files) (kind written : Text) : Logged Path :=
  match files.resolve? written with
  | none => throw (.failed .home)
  | some p =>
    if files.has p then pure p
    else throw (.reported (kind ++ " not found: ".toList ++ p.display))

def graphAt (p : Path) (octets : List UInt8) : Logged FlowGraph :=
  match FlowGraph.ofOctets p.display octets with
  | .ok g => pure g
  | .error .infinite => throw (.failed .infinite)
  | .error e => throw (.reported e.message)

def loadGraph (files : Files) (written : Text) : Logged FlowGraph := do
  let p ← locate files "flow graph".toList written
  .note ("Loading flow graph: ".toList ++ p.display)
  let g ← graphAt p (← .ofFile (files.read p))
  .note g.display
  return g

def catalogueAt (p : Path) (octets : List UInt8) : Logged Catalogue :=
  match Catalogue.ofOctets p.display octets with
  | .ok c => pure c
  | .error (.pattern f) => throw (.failed (.pattern f))
  | .error (.template f) => throw (.failed (.template f))
  | .error (.refused r) => throw (.reported r.message)

def locateCatalogue (files : Files) (written : Text) : Logged Path :=
  locate files "catalogue".toList written

def readCatalogue (files : Files) (p : Path) : Logged Catalogue := do
  catalogueAt p (← .ofFile (files.read p))

def loadCatalogue (files : Files) (written : Text) : Logged Catalogue := do
  let p ← locateCatalogue files written
  .note ("Loading catalogue: ".toList ++ p.display)
  readCatalogue files p

end Lockstep.CommandLine
