import Lockstep.Template.Markup
/-!
Specifications of how a value is written: `fill`, alignment, sign, width, separator, precision and
code, each of which may be absent.
-/

set_option autoImplicit false

namespace Lockstep.Template

inductive Align where
  | left | right | center
  /-- Between the sign and the digits. -/
  | inside
  deriving DecidableEq, Repr

structure Spec where
  fill : Char := ' '
  align : Align
  sign : Option Char := none
  noNegativeZero : Bool := false
  alternate : Bool := false
  width : Option Nat := none
  separator : Option Char := none
  precision : Option Nat := none
  code : Option Char := none
  deriving DecidableEq, Repr

def alignOf? : Char → Option Align
  | '<' => some .left
  | '>' => some .right
  | '^' => some .center
  | '=' => some .inside
  | _ => none

def readAlign : Text → Option Char × Option Align × Text
  | [] => (none, none, [])
  | [c] => match alignOf? c with
    | some a => (none, some a, [])
    | none => (none, none, [c])
  | c :: d :: cs => match alignOf? d with
    | some a => (some c, some a, cs)
    | none => match alignOf? c with
      | some a => (none, some a, d :: cs)
      | none => (none, none, c :: d :: cs)

def takeChar (cls : Char → Bool) : Text → Option Char × Text
  | [] => (none, [])
  | c :: cs => if cls c then (some c, cs) else (none, c :: cs)

def isSign (c : Char) : Bool := c == '+' || c == '-' || c == ' '

def readCount (n : Option Nat) : Text → Except Misuse (Option Nat × Text)
  | [] => .ok (n, [])
  | c :: cs =>
    match Text.digitValue? c with
    | none => .ok (n, c :: cs)
    | some d =>
      let m := n.getD 0 * 10 + d
      if greatestCount < m then .error .tooManyDigits else readCount (some m) cs

/-- At most one of the two separators. -/
def readSeparator (t : Text) : Except Misuse (Option Char × Text) :=
  let (comma, t) := takeChar (· == ',') t
  let (line, t) := takeChar (· == '_') t
  match comma, line with
  | some _, some _ => .error .commaAndLowLine
  | _, some c => if t.head? = some ',' then .error .commaAndLowLine else .ok (some c, t)
  | c, none => .ok (c, t)

def readPrecision : Text → Except Misuse (Option Nat × Text)
  | '.' :: cs => do
    let (n, rest) ← readCount none cs
    match n with
    | none => throw .missingPrecision
    | some n => return (some n, rest)
  | cs => .ok (none, cs)

def isDecimalCode : Option Char → Bool
  | none => true
  | some c => "defgEG%F".toList.contains c

def isBaseCode : Option Char → Bool
  | none => false
  | some c => "boxX".toList.contains c

def checkSeparator (separator : Option Char) (code : Option Char) : Except Misuse Unit :=
  match separator with
  | none => .ok ()
  | some s =>
    if isDecimalCode code || (isBaseCode code && s == '_') then .ok ()
    else .error (.separatorWith s (code.getD '\x00'))

/-- Reads a specification for a value of some kind, with the alignment and code that hold if none
are given. A zero in front of the width fills, inside of what stands right. -/
def readSpec (kind : Text) (align : Align) (code : Option Char) (source : Text) :
    Except Misuse Spec := do
  let (fill, given, t) := readAlign source
  let (sign, t) := takeChar isSign t
  let (noNegativeZero, t) := takeChar (· == 'z') t
  let (alternate, t) := takeChar (· == '#') t
  let (zero, t) := if fill.isNone then takeChar (· == '0') t else (none, t)
  let inside := zero.isSome && given.isNone && align == .right
  let (width, t) ← readCount none t
  let (separator, t) ← readSeparator t
  let (precision, t) ← readPrecision t
  let code ← match t with
    | [] => pure code
    | [c] => pure (some c)
    | _ => throw (.invalidSpec source kind)
  checkSeparator separator code
  return {
    fill := fill.getD (if zero.isSome then '0' else ' ')
    align := if inside then .inside else given.getD align
    sign
    noNegativeZero := noNegativeZero.isSome
    alternate := alternate.isSome
    width
    separator
    precision
    code }

end Lockstep.Template
