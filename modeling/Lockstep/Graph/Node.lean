import Lockstep.Json.Basic
/-!
The parts of a flow graph. A node is an occurrence of a value at a place of the program and belongs
to one routine; an edge is one step of a value, classified by what it does to the call stack.
Names, labels and call sites are JSON values that a graph carries without looking into them.
-/

set_option autoImplicit false

namespace Lockstep

inductive NodeKind where
  | expr | parameter | argument | result | callResult
  deriving DecidableEq, Repr

/-- `local` steps stay in a routine, `call` and `return` steps go through a call site, `jump` steps
forget the calls. -/
inductive EdgeKind where
  | internal | call | return | jump
  deriving DecidableEq, Repr

def NodeKind.all : List NodeKind := [.expr, .parameter, .argument, .result, .callResult]
def EdgeKind.all : List EdgeKind := [.internal, .call, .return, .jump]

def NodeKind.word : NodeKind → Text
  | .expr => "expr".toList
  | .parameter => "parameter".toList
  | .argument => "argument".toList
  | .result => "return".toList
  | .callResult => "call-result".toList

def EdgeKind.word : EdgeKind → Text
  | .internal => "local".toList
  | .call => "call".toList
  | .return => "return".toList
  | .jump => "jump".toList

def NodeKind.ofWord? (t : Text) : Option NodeKind := NodeKind.all.find? (·.word == t)
def EdgeKind.ofWord? (t : Text) : Option EdgeKind := EdgeKind.all.find? (·.word == t)

theorem NodeKind.ofWord?_word (k : NodeKind) : ofWord? k.word = some k := by cases k <;> decide
theorem EdgeKind.ofWord?_word (k : EdgeKind) : ofWord? k.word = some k := by cases k <;> decide

def EdgeKind.needsSite : EdgeKind → Bool
  | .call => true
  | .return => true
  | _ => false

structure Routine where
  name : Json
  file : Json := .text []
  deriving DecidableEq, Repr

/-- The same routine, however its name and file are spelled. -/
def Routine.agrees (a b : Routine) : Bool := a.name.key == b.name.key && a.file.key == b.file.key

structure FlowNode where
  id : Text
  routine : Routine
  label : Json := .text []
  kind : NodeKind := .expr
  callSite : Json := .null
  callee : Json := .null
  argIndex : Int := -1
  file : Json := .text []
  line : Int := 0
  deriving DecidableEq, Repr

namespace FlowNode

/-- What a node is called by: its label, or its identifier if that is empty. -/
def caption (n : FlowNode) : Json := n.label.orElse (.text n.id)

def display (n : FlowNode) : Text := n.routine.name.display ++ ':' :: n.caption.display

def sourceFile (n : FlowNode) : Json := n.file.orElse n.routine.file

/-- The file and line of a node, or what is known of them. -/
def location (n : FlowNode) : Json :=
  if n.line ≠ 0 then .text (n.sourceFile.display ++ ':' :: Text.ofInt n.line)
  else n.sourceFile.orElse n.routine.name

end FlowNode

structure FlowEdge where
  source : Text
  target : Text
  kind : EdgeKind := .internal
  callSite : Json := .null
  deriving DecidableEq, Repr

namespace FlowEdge

def site (e : FlowEdge) : Json := e.callSite.key

/-- The kind of step, with its call site. -/
def caption (e : FlowEdge) : Text :=
  e.kind.word ++ (if e.callSite.holds then '@' :: e.callSite.display else [])

def display (e : FlowEdge) : Text :=
  e.source ++ " -".toList ++ e.caption ++ "-> ".toList ++ e.target

end FlowEdge
end Lockstep
