import Lockstep.Files.Path
import Lockstep.Text.Quoted
/-!
Files and folders, as far as a command can see them. A folder exists if it was made or if something
is in it. Reading and writing fail as a file system does, and a failure names the file.
-/

set_option autoImplicit false

namespace Lockstep

inductive FileFault where
  | missing | taken | notFolder | isFolder
  deriving DecidableEq, Repr

namespace FileFault

def number : FileFault → Nat
  | .missing => 2
  | .taken => 17
  | .notFolder => 20
  | .isFolder => 21

def text : FileFault → Text
  | .missing => "No such file or directory".toList
  | .taken => "File exists".toList
  | .notFolder => "Not a directory".toList
  | .isFolder => "Is a directory".toList

end FileFault

structure FileError where
  fault : FileFault
  name : Text
  deriving DecidableEq, Repr

def FileError.message (e : FileError) : Text :=
  "[Errno ".toList ++ Text.ofNat e.fault.number ++ "] ".toList ++ e.fault.text ++ ": ".toList ++
  Text.quoted e.name

/-- Relative paths start `here`. The files come with what they hold. -/
structure Files where
  here : Path
  home : Path
  contents : List (Path × List UInt8) := []
  folders : List Path := []
  deriving DecidableEq, Repr

namespace Files

/-- The path of a written one. The sign `~` alone as its first part is the home folder; with a name
it is the home of someone unknown. -/
def resolve? (f : Files) (written : Text) : Option Path :=
  match Path.isAbsolute written, Path.partsOf written with
  | false, ['~'] :: parts => some (f.home.follow parts)
  | false, ('~' :: _) :: _ => none
  | _, parts => some ((Path.origin f.here written).follow parts)

def content? (f : Files) (p : Path) : Option (List UInt8) := f.contents.lookup p

def isFile (f : Files) (p : Path) : Bool := (f.content? p).isSome

def isFolder (f : Files) (p : Path) : Bool :=
  p.leadsTo f.here || f.folders.any p.leadsTo || f.contents.any fun c => p.leadsTo c.1.parent

def has (f : Files) (p : Path) : Bool := f.isFile p || f.isFolder p

def isBlocked (f : Files) (p : Path) : Bool := f.contents.any fun c => c.1 != p && c.1.leadsTo p

def absence (f : Files) (p : Path) : FileFault := if f.isBlocked p then .notFolder else .missing

def read (f : Files) (p : Path) : Except FileError (List UInt8) :=
  match f.content? p with
  | some octets => .ok octets
  | none => .error ⟨if f.isFolder p then .isFolder else f.absence p, p.display⟩

def put (f : Files) (p : Path) (octets : List UInt8) : Files :=
  { f with contents := (p, octets) :: f.contents.filter (·.1 != p) }

@[simp] theorem content?_put (f : Files) (p : Path) (octets : List UInt8) :
    (f.put p octets).content? p = some octets := by
  simp [put, content?]

/-- Empties a file, or makes one in a folder that is there. -/
def clear (f : Files) (p : Path) (name : Text) : Except FileError Files :=
  if f.isFolder p then .error ⟨.isFolder, name⟩
  else if f.isFile p || f.isFolder p.parent then .ok (f.put p [])
  else .error ⟨f.absence p, name⟩

/-- Makes a folder and those on the way to it, unless they are there. -/
def makeFolder (f : Files) (p : Path) : Except FileError Files :=
  if f.isFolder p then .ok f
  else if f.isFile p then .error ⟨.taken, p.display⟩
  else if f.isBlocked p then .error ⟨.notFolder, p.display⟩
  else .ok { f with folders := p :: f.folders }

/-- Goes from folder to folder; only the last part may lead to something else. -/
def walk (f : Files) (p : Path) : List Text → Except FileFault Path
  | [] => .ok p
  | t :: ts =>
    if f.isFolder p then f.walk (p.enter t) ts
    else .error (if f.isFile p then .notFolder else f.absence p)

/-- Writes a file in a folder that is there. An error shows the path as it was written. -/
def save (f : Files) (written : Text) (octets : List UInt8) : Except FileError Files :=
  match f.walk (Path.origin f.here written) (Path.partsOf written) with
  | .error fault => .error ⟨fault, Path.plain written⟩
  | .ok p => match f.clear p (Path.plain written) with
    | .error e => .error e
    | .ok f => .ok (f.put p octets)

/-- Writes over the beginning of a file and leaves the rest. -/
def overwrite (f : Files) (p : Path) (octets : List UInt8) : Files :=
  f.put p (octets ++ ((f.content? p).getD []).drop octets.length)

end Files
end Lockstep
