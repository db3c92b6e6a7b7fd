import Lockstep.Template.Failure
import Lockstep.Text.Digit
/-!
The markup of templates. A template is text with fields in braces, where doubled braces stand for
braces; a field has a name, and may have a conversion after `!` and a specification after `:`.
-/

set_option autoImplicit false

namespace Lockstep.Template

inductive Piece where
  | literal (t : Text)
  | field (name : Text) (conversion : Option Char) (spec : Text)
  deriving DecidableEq, Repr

/-- The name of a field, which ends outside of brackets, with the character that ends it. -/
def readName (inBrackets : Bool) : Text → Except Misuse (Text × Char × Text)
  | [] => .error .closeExpected
  | c :: cs =>
    if inBrackets then extend c (readName (c != ']') cs)
    else if c = '\x7b' then .error .openInName
    else if c = '\x7d' ∨ c = ':' ∨ c = '!' then .ok ([], c, cs)
    else extend c (readName (c == '[') cs)
where
  extend (c : Char) : Except Misuse (Text × Char × Text) → Except Misuse (Text × Char × Text)
    | .ok (name, stop, rest) => .ok (c :: name, stop, rest)
    | .error e => .error e

/-- A specification up to the brace that closes the field; braces in it are balanced. -/
def readSpecText (depth : Nat) : Text → Except Misuse (Text × Text)
  | [] => .error .openSpec
  | c :: cs =>
    if c = '\x7d' then
      match depth with
      | 0 => .ok ([], cs)
      | depth + 1 => extend c (readSpecText depth cs)
    else extend c (readSpecText (if c = '\x7b' then depth + 1 else depth) cs)
where
  extend (c : Char) : Except Misuse (Text × Text) → Except Misuse (Text × Text)
    | .ok (spec, rest) => .ok (c :: spec, rest)
    | .error e => .error e

/-- What follows the name. -/
def readTail : Char → Text → Except Misuse (Option Char × Text × Text)
  | ':', cs => do
    let (spec, rest) ← readSpecText 0 cs
    return (none, spec, rest)
  | '!', [] => .error .conversionAtEnd
  | '!', [_] => .error .openSpec
  | '!', c :: '\x7d' :: cs => .ok (conversion c, [], cs)
  | '!', c :: ':' :: cs => do
    let (spec, rest) ← readSpecText 0 cs
    return (conversion c, spec, rest)
  | '!', _ => .error .colonExpected
  | _, cs => .ok (none, [], cs)
where
  conversion (c : Char) : Option Char := if c = '\x00' then none else some c

def isBrace (c : Char) : Bool := c == '\x7b' || c == '\x7d'

/-- The next piece of a text that is not empty, and what follows it. -/
def readPiece (t : Text) : Except Misuse (List Piece × Text) :=
  let plain := t.takeWhile (!isBrace ·)
  let literal (t : Text) : List Piece := if t.isEmpty then [] else [.literal t]
  match t.dropWhile (!isBrace ·) with
  | [] => .ok (literal plain, [])
  | c :: rest =>
    match rest with
    | [] => .error (if c = '\x7d' then .singleClose else .singleOpen)
    | d :: after =>
      if d = c then .ok (literal (plain ++ [c]), after)
      else if c = '\x7d' then .error .singleClose
      else do
        let (name, stop, rest) ← readName false rest
        let (conversion, spec, rest) ← readTail stop rest
        return (literal plain ++ [.field name conversion spec], rest)

/-- The pieces up to the first misuse, and that misuse if there is one. -/
def readPieces : Nat → Text → List Piece × Option Misuse
  | 0, _ => ([], none)
  | _, [] => ([], none)
  | fuel + 1, t =>
    match readPiece t with
    | .error m => ([], some m)
    | .ok (ps, rest) =>
      let (more, m) := readPieces fuel rest
      (ps ++ more, m)

def pieces (t : Text) : List Piece × Option Misuse := readPieces t.length t

/-- One step from a value to a part of it. -/
inductive Access where
  | attribute (name : Text)
  | key (name : Text)
  | index (n : Nat)
  deriving DecidableEq, Repr

/-- Greater numbers are refused. -/
def greatestCount : Nat := Nat.pow 2 63 - 1

/-- A number in the digits of any script, if the text is one. A number that grows too great is
refused as soon as it does, whatever follows. -/
def checkedCount : Option Nat → Text → Except Misuse (Option Nat)
  | n, [] => .ok n
  | n, c :: cs =>
    match Text.digitValue? c with
    | none => .ok none
    | some d =>
      let m := n.getD 0 * 10 + d
      if greatestCount < m then .error .tooManyDigits else checkedCount (some m) cs

/-- A point or bracket ends a part of a name. -/
def isNameEnd (c : Char) : Bool := c == '.' || c == '['

def readAccess : Text → Except Misuse (Access × Text)
  | '.' :: cs =>
    let name := cs.takeWhile (!isNameEnd ·)
    if name.isEmpty then .error .emptyAttribute
    else .ok (.attribute name, cs.dropWhile (!isNameEnd ·))
  | '[' :: cs =>
    let name := cs.takeWhile (· != ']')
    match cs.dropWhile (· != ']') with
    | [] => .error .bracketExpected
    | _ :: rest => do
      let n ← checkedCount none name
      if name.isEmpty then .error .emptyAttribute
      else return (match n with
        | some n => .index n
        | none => .key name, rest)
  | _ => .error .afterBracket

end Lockstep.Template
