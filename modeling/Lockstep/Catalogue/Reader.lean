import Lockstep.Catalogue.Fault
import Lockstep.Pattern.Reader
/-!
Reading a catalogue. It is one form `(catalogue name item …)`; each form is told by the symbol at its
head, and the first that is not as it should be is the answer. A message is tried on sample nodes.
-/

set_option autoImplicit false

namespace Lockstep.Catalogue

/-- What is read knows the file that is being read. -/
abbrev Read := ReaderT Text (Except Fault)

/-- A place in the file that is being read. -/
def here : Read SourceLoc := fun file => .ok { file }

def refuse {α : Type} (c : Cause) : Read α := do throw (.refused ⟨c, ← here⟩)

/-- What is there, or a refusal. -/
def orRefuse {α : Type} (c : Cause) : Option α → Read α
  | some a => pure a
  | none => refuse c

def symbolName : Sexp → Read Text
  | .symbol name => pure name
  | x => refuse (.notSymbol x)

def head : List Sexp → Read Text
  | [] => refuse .emptyList
  | x :: _ => symbolName x

/-- The elements of a list with one element or more, and its head. -/
def readForm : Sexp → Read (Text × List Sexp)
  | .list xs => do return (← head xs, xs.drop 1)
  | x => refuse (.notList none x)

def readText (x : Sexp) : Read Text := orRefuse (.notText x) x.word?

def readWhole : Sexp → Read Int
  | .int i => pure i
  | x => refuse (.notWhole x)

/-- The form as it was written. -/
def whole (tag : Text) (args : List Sexp) : List Sexp := .symbol tag :: args

def only (tag : Text) : List Sexp → Read Sexp
  | [x] => pure x
  | args => refuse (.wrongCount tag (whole tag args))

def noArgs (tag : Text) : List Sexp → Read Unit
  | [] => pure ()
  | args => refuse (.wrongCount tag (whole tag args))

def readPattern (source : Text) : Read Pattern :=
  match Pattern.read source with
  | .ok p => pure p
  | .error f =>
    if (f.message? source).isSome then refuse (.badPattern source f) else throw (.pattern f)

def readKind (name : Text) : Read NodeKind := orRefuse (.unknownKind name) (NodeKind.ofWord? name)

/-- Sets what is not yet set. -/
def once {α : Type} (tag : Text) (old : Option α) (new : α) : Read (Option α) :=
  match old with
  | none => pure (some new)
  | some _ => refuse (.repeatedMatcher tag)

def readMatcher (m : Matcher) (tag : Text) (args : List Sexp) : Read Matcher := do
  if tag = "id".toList then
    let t ← readText (← only tag args)
    return { m with id := ← once tag m.id t }
  else if tag = "label".toList then
    let t ← readText (← only tag args)
    return { m with label := ← once tag m.label t }
  else if tag = "label-match".toList then
    let p ← readPattern (← readText (← only tag args))
    return { m with labelMatch := ← once tag m.labelMatch p }
  else if tag = "kind".toList then
    let k ← readKind (← readText (← only tag args))
    return { m with kind := ← once tag m.kind k }
  else if tag = "routine".toList then
    let t ← readText (← only tag args)
    return { m with routine := ← once tag m.routine t }
  else if tag = "call".toList then
    let t ← readText (← only tag args)
    return { m with callee := ← once tag m.callee t }
  else if tag = "arg".toList then
    let i ← readWhole (← only tag args)
    return { m with argIndex := ← once tag m.argIndex i }
  else refuse (.unknownMatcher tag)

def readGroup (m : Matcher) : List Sexp → Read Matcher
  | [] => pure m
  | x :: xs => do
    let (tag, args) ← readForm x
    let m ← readMatcher m tag args
    readGroup m xs

/-- What has been read of a rule. -/
structure Parts where
  first : Option Matcher := none
  second : Option Matcher := none
  sameCall : Bool := false
  distinct : Bool := false

def readPart (rule : Text) (p : Parts) (x : Sexp) : Read Parts := do
  let (tag, args) ← readForm x
  if tag = "first".toList then
    return { p with first := some (← readGroup { } args) }
  else if tag = "second".toList then
    return { p with second := some (← readGroup { } args) }
  else if tag = "same-call".toList then
    noArgs tag args
    return { p with sameCall := true }
  else if tag = "distinct".toList then
    noArgs tag args
    return { p with distinct := true }
  else refuse (.unknownPart tag rule)

def readParts (rule : Text) (p : Parts) : List Sexp → Read Parts
  | [] => pure p
  | x :: xs => do readParts rule (← readPart rule p x) xs

def readRule (tag : Text) (args : List Sexp) : Read PairRule := do
  let p ← readParts tag { } args
  match p.first, p.second with
  | some first, some second =>
    return { first, second, sameCall := p.sameCall, distinct := p.distinct }
  | _, _ => refuse (.missingGroup tag)

def sampleRoutine : Routine := ⟨.text ['f'], .text "f.c".toList⟩

def sampleNode (name : String) : FlowNode :=
  { id := name.toList, routine := sampleRoutine, label := .text name.toList, line := 1 }

def sampleFields : Template.Fields where
  source1 := sampleNode "source1"
  source2 := sampleNode "source2"
  sink1 := sampleNode "sink1"
  sink2 := sampleNode "sink2"

/-- A message that can be filled in with the samples. -/
def readMessage (source : Text) : Read Text :=
  match Template.render source sampleFields with
  | .ok _ => pure source
  | .error f =>
    if f.message?.isSome then refuse (.badMessage source f) else throw (.template f)

def readSeverity (name : Text) : Read Severity :=
  orRefuse (.unknownSeverity name) (Severity.ofLabel? name)

def readSide (name : Text) : Read BarrierSide :=
  orRefuse (.unknownSide name) (BarrierSide.ofWord? name)

def readBarrier (tag : Text) : List Sexp → Read BarrierRule
  | side :: x :: xs => do
    let side ← readSide (← readText side)
    return ⟨side, ← readGroup { } (x :: xs)⟩
  | args => refuse (.wrongCount tag (whole tag args))

def readItem (c : Catalogue) (x : Sexp) : Read Catalogue := do
  let (tag, args) ← readForm x
  if tag = "description".toList then
    return { c with description := ← readText (← only tag args) }
  else if tag = "message".toList then
    return { c with message := ← readMessage (← readText (← only tag args)) }
  else if tag = "severity".toList then
    return { c with severity := ← readSeverity (← readText (← only tag args)) }
  else if tag = "source-pair".toList then
    return { c with sourceRules := c.sourceRules ++ [← readRule tag args] }
  else if tag = "sink-pair".toList then
    return { c with sinkRules := c.sinkRules ++ [← readRule tag args] }
  else if tag = "barrier".toList then
    return { c with barriers := c.barriers ++ [← readBarrier tag args] }
  else refuse (.unknownItem tag)

def readItems (c : Catalogue) : List Sexp → Read Catalogue
  | [] => pure c
  | x :: xs => do readItems (← readItem c x) xs

def word : Text := "catalogue".toList

/-- The catalogue of an expression. -/
def ofSexp : Sexp → Read Catalogue
  | .list (x :: y :: items) => do
    let tag ← symbolName x
    if tag ≠ word then refuse (.notCatalogue tag)
    let name ← readText y
    readItems { name, loc := ← here } items
  | .list xs => refuse (.wrongCount word xs)
  | x => refuse (.notList (some word) x)

def ofText (source : Text) : Read Catalogue :=
  match Sexp.read source with
  | .error f => refuse (.malformed f)
  | .ok x => ofSexp x

def read (file source : Text) : Except Fault Catalogue := (ofText source).run file

def ofOctets (file : Text) (octets : List UInt8) : Except Fault Catalogue :=
  match Text.Utf8.decode octets with
  | .error f => (refuse (.encoding f)).run file
  | .ok t => read file (Text.unifyNewlines t)

end Lockstep.Catalogue
