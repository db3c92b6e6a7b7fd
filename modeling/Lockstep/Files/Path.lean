import Lockstep.Text.Basic
/-!
Paths. An absolute path is given by its parts from the root. A written path names one when it is
known where relative paths start; `..` takes the last part away.
-/

set_option autoImplicit false

namespace Lockstep

structure Path where
  parts : List Text
  deriving DecidableEq, Repr

namespace Path

def root : Path := ⟨[]⟩

def display (p : Path) : Text :=
  if p.parts.isEmpty then ['/'] else p.parts.flatMap ('/' :: ·)

def parent (p : Path) : Path := ⟨p.parts.dropLast⟩

/-- It is the other path or on the way from the root to it. -/
def leadsTo (p q : Path) : Bool := p.parts.isPrefixOf q.parts

theorem root_leadsTo (p : Path) : root.leadsTo p = true := rfl

@[simp] theorem leadsTo_self (p : Path) : p.leadsTo p = true := by
  simp [leadsTo]

/-- The parts of a written path. Empty ones and single points say nothing. -/
def partsOf (written : Text) : List Text :=
  (Text.splitAtChar '/' written).filter fun t => !t.isEmpty && t != ['.']

def isAbsolute (written : Text) : Bool := written.head? == some '/'

def enter (p : Path) (part : Text) : Path :=
  if part = ['.', '.'] then p.parent else ⟨p.parts ++ [part]⟩

/-- The path to which parts lead, whatever there is on the way. -/
def follow (p : Path) (parts : List Text) : Path := parts.foldl enter p

def origin (here : Path) (written : Text) : Path := if isAbsolute written then root else here

/-- A written path in its plainest form. Two slashes at its front are kept, more are one. -/
def plain (written : Text) : Text :=
  let body := Text.join ['/'] (partsOf written)
  let slashes := (written.takeWhile (· == '/')).length
  if slashes = 0 then if body.isEmpty then ['.'] else body
  else if slashes = 2 then '/' :: '/' :: body
  else '/' :: body

end Path
end Lockstep
