import Lockstep.Text.Basic
/-!
Where in a file something is. A line that is zero is not known.
-/

set_option autoImplicit false

namespace Lockstep

structure SourceLoc where
  file : Text := "<string>".toList
  line : Int := 0
  column : Int := 0
  deriving DecidableEq, Repr

namespace SourceLoc

def display (l : SourceLoc) : Text :=
  if l.line = 0 then l.file
  else l.file ++ ':' :: Text.ofInt l.line ++ ':' :: Text.ofInt l.column

/-- A message with the place that it is about in front, if that is given. -/
def prepend (place : Option SourceLoc) (message : Text) : Text :=
  match place with
  | none => message
  | some l => l.display ++ ": ".toList ++ message

end SourceLoc
end Lockstep
