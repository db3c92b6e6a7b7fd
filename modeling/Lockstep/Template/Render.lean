import Lockstep.Template.Value
import Lockstep.Template.Written
/-!
Filling in a template. The pieces are taken from left to right, and the first failure ends the
work; a misuse of the markup counts where it stands. The specification of a field may itself hold
fields, which may not go deeper.
-/

set_option autoImplicit false

namespace Lockstep.Template

namespace Value

/-- A value written by the specification of its field. -/
def written (v : Value) (spec : Text) : Except Failure Text :=
  match v with
  | .kind k => writeText "str".toList spec (kindShown k)
  | .plain (.text t) => writeText "str".toList spec t
  | .plain (.int i) => if spec.isEmpty then .ok (Text.ofInt i) else writeWhole "int".toList spec i
  | .plain (.bool b) =>
    if spec.isEmpty then v.shown else writeWhole "bool".toList spec (if b then 1 else 0)
  | .plain (.float f) => writeFloat spec f
  | v => if spec.isEmpty then v.shown else .error (.mismatch (.unsupportedSpec v.typeName))

end Value

def renderPiece (f : Fields) (inner : Text → Except Failure Text) : Piece → Except Failure Text
  | .literal t => .ok t
  | .field name conversion spec => do
    let v ← f.resolve name
    let v ← v.convert conversion
    let spec ← if spec.contains '\x7b' then inner spec else pure spec
    v.written spec

def renderPieces (f : Fields) (inner : Text → Except Failure Text) :
    List Piece → Except Failure Text
  | [] => .ok []
  | p :: ps => do
    let t ← renderPiece f inner p
    let rest ← renderPieces f inner ps
    return t ++ rest

/-- Renders a template with so many levels of nesting. -/
def renderTo (f : Fields) : Nat → Text → Except Failure Text
  | 0, _ => .error (.misuse .tooDeep)
  | depth + 1, t => do
    let (ps, misuse) := pieces t
    let done ← renderPieces f (renderTo f depth) ps
    match misuse with
    | some m => throw (.misuse m)
    | none => return done

def render (t : Text) (f : Fields) : Except Failure Text := renderTo f 2 t

end Lockstep.Template
