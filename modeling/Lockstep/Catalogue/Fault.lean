import Lockstep.Catalogue.Basic
import Lockstep.Pattern.Fault
import Lockstep.Sexp.Reader
import Lockstep.Text.Utf8
/-!
Why a catalogue is refused. A pattern or a template can also fail in a way that is not the
catalogue's fault; such a failure has no message of the catalogue.
-/

set_option autoImplicit false

namespace Lockstep.Catalogue

inductive Cause where
  | encoding (f : Text.Utf8.Fault)
  | malformed (f : Sexp.Fault)
  | notSymbol (x : Sexp)
  | emptyList
  | notList (tag : Option Text) (x : Sexp)
  | wrongCount (tag : Text) (xs : List Sexp)
  | notText (x : Sexp)
  | notWhole (x : Sexp)
  | notCatalogue (tag : Text)
  | unknownItem (tag : Text)
  | unknownPart (part tag : Text)
  | unknownMatcher (tag : Text)
  | repeatedMatcher (tag : Text)
  | missingGroup (tag : Text)
  | badPattern (source : Text) (f : Pattern.Fault)
  | badMessage (source : Text) (f : Template.Failure)
  | unknownKind (name : Text)
  | unknownSeverity (name : Text)
  | unknownSide (name : Text)
  deriving Repr

def form (tag : Text) : Text := '(' :: tag ++ " ...)".toList

def got (x : Sexp) : Text := ", got ".toList ++ x.kindName ++ ": ".toList ++ x.shown

def Cause.message : Cause → Text
  | .encoding f => "not valid UTF-8: ".toList ++ f.message
  | .malformed f => "Malformed S-expression: ".toList ++ f.message
  | .notSymbol x => "Expected symbol".toList ++ got x
  | .emptyList => "Unexpected empty list".toList
  | .notList tag x =>
    "Expected list".toList ++ (match tag with
      | some tag => ' ' :: form tag
      | none => []) ++ got x
  | .wrongCount tag xs =>
    "Wrong number of elements in ".toList ++ form tag ++ ": ".toList ++ (Sexp.list xs).shown
  | .notText x => "Expected string or symbol".toList ++ got x
  | .notWhole x => "Expected integer".toList ++ got x
  | .notCatalogue tag => "Expected (catalogue ...), got ".toList ++ form tag
  | .unknownItem tag => "Unknown catalogue form: ".toList ++ form tag
  | .unknownPart part tag => "Unknown form ".toList ++ form part ++ " in ".toList ++ form tag
  | .unknownMatcher tag => "Unknown matcher form: ".toList ++ form tag
  | .repeatedMatcher tag => "Matcher ".toList ++ form tag ++ " given twice in one group".toList
  | .missingGroup tag =>
    form tag ++ " needs both a (first ...) and a (second ...) group".toList
  | .badPattern source f =>
    "Invalid regex in label-match: ".toList ++ Text.quoted source ++ ": ".toList ++
    (f.message? source).getD []
  | .badMessage source f =>
    "Bad placeholder in message ".toList ++ Text.quoted source ++ ": ".toList ++
    f.message?.getD []
  | .unknownKind name =>
    "Unknown node kind ".toList ++ Text.quoted name ++ " (expected one of: ".toList ++
    Text.join ", ".toList (NodeKind.all.map (·.word)) ++ [')']
  | .unknownSeverity name =>
    "Severity must be error, warning or note, got ".toList ++ Text.quoted name
  | .unknownSide name =>
    "Barrier side must be first, second or both, got ".toList ++ Text.quoted name

/-- A cause, and the file that it was met in. -/
structure Refusal where
  cause : Cause
  place : SourceLoc
  deriving Repr

def Refusal.message (r : Refusal) : Text := SourceLoc.prepend (some r.place) r.cause.message

inductive Fault where
  | refused (r : Refusal)
  | pattern (f : Pattern.Fault)
  | template (f : Template.Failure)
  deriving Repr

end Lockstep.Catalogue
