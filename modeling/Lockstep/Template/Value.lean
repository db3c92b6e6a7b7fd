import Lockstep.Graph.Node
import Lockstep.Template.Markup
/-!
The values that a template can name: the four ends of a pair of flows, the routine where they
arrive, and the parts of these.
-/

set_option autoImplicit false

namespace Lockstep.Template

inductive Value where
  | node (n : FlowNode)
  | routine (r : Routine)
  | kind (k : NodeKind)
  | plain (v : Json)
  deriving DecidableEq, Repr

structure Fields where
  source1 : FlowNode
  source2 : FlowNode
  sink1 : FlowNode
  sink2 : FlowNode

def Fields.find? (f : Fields) (name : Text) : Option Value :=
  if name = "source1".toList then some (.node f.source1)
  else if name = "source2".toList then some (.node f.source2)
  else if name = "sink1".toList then some (.node f.sink1)
  else if name = "sink2".toList then some (.node f.sink2)
  else if name = "routine".toList then some (.routine f.sink1.routine)
  else none

def kindConstant : NodeKind → Text
  | .expr => "EXPR".toList
  | .parameter => "PARAMETER".toList
  | .argument => "ARGUMENT".toList
  | .result => "RETURN".toList
  | .callResult => "CALL_RESULT".toList

namespace Value

def typeName : Value → Text
  | .node _ => "FlowNode".toList
  | .routine _ => "Routine".toList
  | .kind _ => "NodeKind".toList
  | .plain v => v.kindName

def nodePart? (n : FlowNode) (name : Text) : Option Value :=
  if name = "id".toList then some (.plain (.text n.id))
  else if name = "routine".toList then some (.routine n.routine)
  else if name = "label".toList then some (.plain n.label)
  else if name = "kind".toList then some (.kind n.kind)
  else if name = "call_site".toList then some (.plain n.callSite)
  else if name = "callee".toList then some (.plain n.callee)
  else if name = "arg_index".toList then some (.plain (.int n.argIndex))
  else if name = "file".toList then some (.plain n.file)
  else if name = "line".toList then some (.plain (.int n.line))
  else if name = "location".toList then some (.plain n.location)
  else none

def routinePart? (r : Routine) (name : Text) : Option Value :=
  if name = "name".toList then some (.plain r.name)
  else if name = "file".toList then some (.plain r.file)
  else none

def kindPart? (k : NodeKind) (name : Text) : Option Value :=
  if name = "value".toList then some (.plain (.text k.word))
  else if name = "name".toList then some (.plain (.text (kindConstant k)))
  else (NodeKind.all.find? (kindConstant · == name)).map .kind

/-- A whole number is also a fraction and a complex number. -/
def wholePart? (i : Int) (name : Text) : Option Value :=
  if name = "real".toList ∨ name = "numerator".toList then some (.plain (.int i))
  else if name = "imag".toList then some (.plain (.int 0))
  else if name = "denominator".toList then some (.plain (.int 1))
  else none

def attribute? : Value → Text → Option Value
  | .node n, name => nodePart? n name
  | .routine r, name => routinePart? r name
  | .kind k, name => kindPart? k name
  | .plain (.int i), name => wholePart? i name
  | .plain (.bool b), name => wholePart? (if b then 1 else 0) name
  | .plain (.float f), name =>
    if name = "real".toList then some (.plain (.float f))
    else if name = "imag".toList then some (.plain (.float (.zero false)))
    else none
  | _, _ => none

/-- The member of an object whose name is that number can only be missing. -/
def at? (v : Value) (n : Nat) : Except Failure Value :=
  match v with
  | .plain (.text t) => match t[n]? with
    | some c => .ok (.plain (.text [c]))
    | none => .error .textEnd
  | .plain (.list xs) => match xs[n]? with
    | some x => .ok (.plain x)
    | none => .error .listEnd
  | .plain (.object _) => .error (.noField (.int n))
  | v => .error (.mismatch (.notSubscriptable v.typeName))

def keyed? (v : Value) (name : Text) : Except Failure Value :=
  match v with
  | .plain (.text _) => .error (.mismatch .textIndex)
  | .plain (.list _) => .error (.mismatch .listIndex)
  | .plain (.object ms) => match Json.member? name ms with
    | some x => .ok (.plain x)
    | none => .error (.noField (.text name))
  | v => .error (.mismatch (.notSubscriptable v.typeName))

def access (v : Value) : Access → Except Failure Value
  | .attribute name => match v.attribute? name with
    | some w => .ok w
    | none => .error (.noAttribute v.typeName name)
  | .index n => v.at? n
  | .key name => v.keyed? name

/-- Follows the parts of a name after its first one. -/
def followFrom : Nat → Value → Text → Except Failure Value
  | _, v, [] => .ok v
  | 0, v, _ => .ok v
  | fuel + 1, v, t =>
    match readAccess t with
    | .error m => .error (.misuse m)
    | .ok (a, rest) => match v.access a with
      | .error e => .error e
      | .ok w => followFrom fuel w rest

def quotedField (name : Text) (value : Text) : Text := name ++ '=' :: value

def routineQuoted (r : Routine) : Text :=
  "Routine(name=".toList ++ r.name.quoted ++ ", file=".toList ++ r.file.quoted ++ [')']

def kindShown (k : NodeKind) : Text := "NodeKind.".toList ++ kindConstant k

def kindQuoted (k : NodeKind) : Text :=
  '<' :: kindShown k ++ ": ".toList ++ Text.quoted k.word ++ ['>']

def nodeQuoted (n : FlowNode) : Text :=
  "FlowNode(".toList ++ Text.join ", ".toList [
    quotedField "id".toList (Text.quoted n.id),
    quotedField "routine".toList (routineQuoted n.routine),
    quotedField "label".toList n.label.quoted,
    quotedField "kind".toList (kindQuoted n.kind),
    quotedField "call_site".toList n.callSite.quoted,
    quotedField "callee".toList n.callee.quoted,
    quotedField "arg_index".toList (Text.ofInt n.argIndex),
    quotedField "file".toList n.file.quoted,
    quotedField "line".toList (Text.ofInt n.line)] ++ [')']

/-- A value with all of its parts, texts quoted. -/
def quoted : Value → Text
  | .node n => nodeQuoted n
  | .routine r => routineQuoted r
  | .kind k => kindQuoted k
  | .plain v => v.quoted

/-- A value as it stands in running text. A routine goes by its name, which has to be a text. -/
def shown : Value → Except Failure Text
  | .node n => .ok n.display
  | .routine r => match r.name with
    | .text t => .ok t
    | v => .error (.mismatch (.notText v.kindName))
  | .kind k => .ok (kindShown k)
  | .plain v => .ok v.display

/-- A conversion turns the value into text before it is written. -/
def convert (v : Value) : Option Char → Except Failure Value
  | none => .ok v
  | some 'r' => .ok (.plain (.text v.quoted))
  | some 'a' => .ok (.plain (.text (Text.asciiOnly v.quoted)))
  | some 's' => match v.shown with
    | .ok t => .ok (.plain (.text t))
    | .error e => .error e
  | some c => .error (.misuse (.unknownConversion c))

end Value

/-- The value of a field's name. A number or nothing in front would count arguments, of which there
are none. -/
def Fields.resolve (f : Fields) (name : Text) : Except Failure Value := do
  let first := name.takeWhile (!isNameEnd ·)
  let rest := name.dropWhile (!isNameEnd ·)
  match checkedCount none first with
  | .error m => throw (.misuse m)
  | .ok (some _) => throw (.misuse .positional)
  | .ok none =>
    if first.isEmpty then throw (.misuse .positional)
    match f.find? first with
    | none => throw (.noField (.text first))
    | some v => v.followFrom (rest.length + 1) rest

end Lockstep.Template
