import Lockstep.Sexp.Basic
import Lockstep.Number.Literal
/-!
Reading one S-expression. White space and comments separate; a backslash takes the meaning from the
character after it; an atom that can be read as a number is one, and else a symbol.
-/

set_option autoImplicit false

namespace Lockstep.Sexp

inductive Fault where
  | openText
  | escapeAtEnd
  | closer (expected : Char) (found : Option Char)
  | surplus (rest : Text)
  | nothingQuoted (offset : Nat)
  | notOne
  deriving DecidableEq, Repr

def Fault.message : Fault → Text
  | .openText => "'NoneType' object has no attribute 'start'".toList
  | .escapeAtEnd => "string index out of range".toList
  | .closer expected found =>
    "Not enough closing brackets. Expected ".toList ++ Text.quoted [expected] ++
    " to be the last letter in the sexp. Got: ".toList ++
    (match found with
      | some c => Text.quoted [c]
      | none => "None".toList)
  | .surplus rest =>
    "Too many closing brackets. Expected no character left in the sexp. Got: ".toList ++
    Text.quoted rest
  | .nothingQuoted offset =>
    "No s-exp is found after an apostrophe at position ".toList ++ Text.ofNat offset
  | .notOne => []

def isSpace (c : Char) : Bool :=
  c == ' ' || c == '\t' || c == '\n' || c == '\r' || c == '\x0b' || c == '\x0c'

def isBracket (c : Char) : Bool := c == '(' || c == ')' || c == '[' || c == ']'

def endsAtom (c : Char) : Bool := isSpace c || isBracket c || c == '"' || c == ';'

/-- The character that a backslash and the given one stand for in a text. -/
def textEscape? : Char → Option Char
  | '\\' => some '\\'
  | '"' => some '"'
  | 'b' => some '\x08'
  | 'f' => some '\x0c'
  | 'n' => some '\n'
  | 'r' => some '\r'
  | 't' => some '\t'
  | _ => none

/-- The characters that a backslash protects in an atom. -/
def isProtected (c : Char) : Bool := "\\'\x60\"()[] ,?;#".toList.contains c

/-- The content of a text up to its closing quote, with how many characters that took. -/
def readText : Text → Except Fault (Text × Nat × Text)
  | [] => .error .openText
  | '"' :: cs => .ok ([], 1, cs)
  | ['\\'] => .error .escapeAtEnd
  | '\\' :: c :: cs =>
    (readText cs).map fun r =>
      (match textEscape? c with
        | some e => (e :: r.1, r.2.1 + 2, r.2.2)
        | none => ('\\' :: c :: r.1, r.2.1 + 2, r.2.2))
  | c :: cs => (readText cs).map fun r => (c :: r.1, r.2.1 + 1, r.2.2)

/-- The characters of an atom, with how many characters that took. -/
def readAtom : Text → Except Fault (Text × Nat × Text)
  | [] => .ok ([], 0, [])
  | ['\\'] => .error .escapeAtEnd
  | '\\' :: c :: cs =>
    (readAtom cs).map fun r =>
      (if isProtected c then c :: r.1 else '\\' :: c :: r.1, r.2.1 + 2, r.2.2)
  | c :: cs =>
    if endsAtom c then .ok ([], 0, c :: cs)
    else (readAtom cs).map fun r => (c :: r.1, r.2.1 + 1, r.2.2)

def ofAtom (t : Text) : Sexp :=
  match Literal.int? t with
  | some i => .int i
  | none => match Literal.float? t with
    | some f => .float f
    | none => .symbol t

/-- The expressions up to a closing bracket or the end, what is left, and its offset. Every step
takes a character, so a bound of the text's length is never met. -/
def readItems : Nat → Nat → Text → Except Fault (List Sexp × Nat × Text)
  | 0, offset, cs => .ok ([], offset, cs)
  | _, offset, [] => .ok ([], offset, [])
  | fuel + 1, offset, c :: cs =>
    let continueWith (x : Sexp) (offset : Nat) (rest : Text) :=
      (readItems fuel offset rest).map fun r => (x :: r.1, r.2)
    let group (closing : Char) (wrap : List Sexp → Sexp) :=
      match readItems fuel (offset + 1) cs with
      | .error f => .error f
      | .ok (xs, next, rest) =>
        match rest with
        | d :: rest =>
          if d = closing then continueWith (wrap xs) (next + 1) rest
          else .error (.closer closing (some d))
        | [] => .error (.closer closing none)
    if c = '"' then
      match readText cs with
      | .error f => .error f
      | .ok (t, size, rest) => continueWith (.text t) (offset + 1 + size) rest
    else if isSpace c then readItems fuel (offset + 1) cs
    else if c = '(' then group ')' .list
    else if c = '[' then group ']' .brackets
    else if c = ')' ∨ c = ']' then .ok ([], offset, c :: cs)
    else if c = '\'' then
      match readItems fuel (offset + 1) cs with
      | .error f => .error f
      | .ok ([], _, _) => .error (.nothingQuoted offset)
      | .ok (x :: xs, next, rest) => .ok (.quote x :: xs, next, rest)
    else if c = ';' then
      let comment := cs.takeWhile (· != '\n')
      match cs.drop comment.length with
      | [] => .ok ([], offset + 1 + comment.length, [])
      | _ :: rest => readItems fuel (offset + 2 + comment.length) rest
    else match readAtom (c :: cs) with
      | .error f => .error f
      | .ok (t, size, rest) => continueWith (ofAtom t) (offset + size) rest

def read (source : Text) : Except Fault Sexp :=
  match readItems (source.length + 1) 0 source with
  | .error f => .error f
  | .ok (xs, _, rest) =>
    if rest.isEmpty then
      match xs with
      | [x] => .ok x
      | _ => .error .notOne
    else .error (.surplus rest)

end Lockstep.Sexp
