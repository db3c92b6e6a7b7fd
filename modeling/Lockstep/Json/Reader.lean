import Lockstep.Json.Basic
import Lockstep.Number.Literal
import Lockstep.Text.Place
/-!
Reading JSON text. The reader is a little wider than the standard: `NaN` and the two infinities
are numbers, and of members with one name the last counts. A fault names the first place where the
text cannot go on.
-/

set_option autoImplicit false

namespace Lockstep.Json

inductive Cause where
  | byteOrderMark | value | name | colon | comma | extra
  | unterminated | control | escape | unicodeEscape
  deriving DecidableEq, Repr

structure Fault where
  cause : Cause
  offset : Nat
  deriving DecidableEq, Repr

def Cause.message : Cause → Text
  | .byteOrderMark => "Unexpected UTF-8 BOM (decode using utf-8-sig)".toList
  | .value => "Expecting value".toList
  | .name => "Expecting property name enclosed in double quotes".toList
  | .colon => "Expecting ':' delimiter".toList
  | .comma => "Expecting ',' delimiter".toList
  | .extra => "Extra data".toList
  | .unterminated => "Unterminated string starting at".toList
  | .control => "Invalid control character at".toList
  | .escape => "Invalid \\escape".toList
  | .unicodeEscape => "Invalid \\uXXXX escape".toList

def Fault.message (f : Fault) (source : Text) : Text :=
  f.cause.message ++ ": line ".toList ++ Text.ofNat (Text.lineAt source f.offset) ++
  " column ".toList ++ Text.ofNat (Text.columnAt source f.offset) ++
  " (char ".toList ++ Text.ofNat f.offset ++ [')']

/-- What is left of the text, and the offset at which it starts. -/
structure Cursor where
  offset : Nat
  rest : Text

def Cursor.fault {α : Type} (c : Cursor) (cause : Cause) : Except Fault α :=
  .error ⟨cause, c.offset⟩

def isSpace (c : Char) : Bool := c == ' ' || c == '\t' || c == '\n' || c == '\r'

def skipSpace (offset : Nat) : Text → Cursor
  | [] => ⟨offset, []⟩
  | c :: cs => if isSpace c then skipSpace (offset + 1) cs else ⟨offset, c :: cs⟩

def Cursor.skip (c : Cursor) : Cursor := skipSpace c.offset c.rest

def simpleEscape? : Char → Option Char
  | '"' => some '"'
  | '\\' => some '\\'
  | '/' => some '/'
  | 'b' => some '\x08'
  | 'f' => some '\x0c'
  | 'n' => some '\n'
  | 'r' => some '\r'
  | 't' => some '\t'
  | _ => none

def unit? (a b c d : Char) : Option Nat := do
  let a ← Text.hexValue? a
  let b ← Text.hexValue? b
  let c ← Text.hexValue? c
  let d ← Text.hexValue? d
  pure (a * 4096 + b * 256 + c * 16 + d)

def isHigh (u : Nat) : Bool := decide (0xD800 ≤ u) && decide (u < 0xDC00)
def isLow (u : Nat) : Bool := decide (0xDC00 ≤ u) && decide (u < 0xE000)

/-- A half of a pair that has lost its partner. -/
def orphan : Option Nat → Text
  | none => []
  | some _ => ['\uFFFD']

/-- The characters of a string up to its closing quote. `start` is the offset of the opening one,
`high` the first half of a pair that waits for its second. -/
def readString (start : Nat) (high : Option Nat) (offset : Nat) :
    Text → Except Fault (Text × Cursor)
  | [] => .error ⟨.unterminated, start⟩
  | '"' :: cs => .ok (orphan high, ⟨offset + 1, cs⟩)
  | ['\\'] => .error ⟨.unterminated, start⟩
  | '\\' :: 'u' :: a :: b :: c :: d :: cs =>
    match unit? a b c d with
    | none => .error ⟨.unicodeEscape, offset + 1⟩
    | some u =>
      if cs.isEmpty then .error ⟨.unicodeEscape, offset + 1⟩
      else if isHigh u then
        (readString start (some u) (offset + 6) cs).map fun r => (orphan high ++ r.1, r.2)
      else match high with
        | some h =>
          if isLow u then
            let c := Char.ofNat (0x10000 + (h - 0xD800) * 1024 + (u - 0xDC00))
            (readString start none (offset + 6) cs).map fun r => (c :: r.1, r.2)
          else (readString start none (offset + 6) cs).map fun r =>
            (orphan high ++ Char.ofNat u :: r.1, r.2)
        | none =>
          let c := if isLow u then '\uFFFD' else Char.ofNat u
          (readString start none (offset + 6) cs).map fun r => (c :: r.1, r.2)
  | '\\' :: 'u' :: _ => .error ⟨.unicodeEscape, offset + 1⟩
  | '\\' :: c :: cs =>
    match simpleEscape? c with
    | none => .error ⟨.escape, offset⟩
    | some e => (readString start none (offset + 2) cs).map fun r => (orphan high ++ e :: r.1, r.2)
  | c :: cs =>
    if c.toNat < 0x20 then .error ⟨.control, offset⟩
    else (readString start none (offset + 1) cs).map fun r => (orphan high ++ c :: r.1, r.2)

/-- The whole part of a number: a zero alone, or digits that start with another. -/
def wholePart : Text → Text
  | [] => []
  | c :: cs =>
    if c = '0' then ['0'] else if c.isDigit then c :: cs.takeWhile Char.isDigit else []

/-- A point with digits after it, or nothing. -/
def fractionPart : Text → Text
  | '.' :: cs => match cs.takeWhile Char.isDigit with
    | [] => []
    | ds => '.' :: ds
  | _ => []

/-- A marked power of ten, or nothing. -/
def exponentPart : Text → Text
  | [] => []
  | e :: cs =>
    if e = 'e' ∨ e = 'E' then
      let signed := match cs with
        | '+' :: _ => ['+']
        | '-' :: _ => ['-']
        | _ => []
      match (cs.drop signed.length).takeWhile Char.isDigit with
      | [] => []
      | ds => e :: (signed ++ ds)
    else []

/-- A number: whole if it has neither point nor exponent. -/
def readNumber (c : Cursor) : Except Fault (Json × Cursor) :=
  let negative := match c.rest with
    | '-' :: _ => true
    | _ => false
  let body := if negative then c.rest.drop 1 else c.rest
  let whole := wholePart body
  if whole.isEmpty then c.fault .value
  else
    let afterWhole := body.drop whole.length
    let fraction := fractionPart afterWhole
    let afterFraction := afterWhole.drop fraction.length
    let power := exponentPart afterFraction
    let size := (if negative then 1 else 0) + whole.length + fraction.length + power.length
    let next : Cursor := ⟨c.offset + size, afterFraction.drop power.length⟩
    if fraction.isEmpty && power.isEmpty then
      let n := Literal.valueFrom 0 whole
      .ok (.int (if negative then -(n : Int) else n), next)
    else match Literal.scientific? negative (whole ++ fraction ++ power) with
      | some f => .ok (.float f, next)
      | none => c.fault .value

def constants : List (Text × Json) := [
  ("null".toList, .null), ("true".toList, .bool true), ("false".toList, .bool false),
  ("NaN".toList, .float .nan), ("Infinity".toList, .float (.infinite false)),
  ("-Infinity".toList, .float (.infinite true))]

def readConstant? (c : Cursor) : List (Text × Json) → Option (Json × Cursor)
  | [] => none
  | (word, v) :: more =>
    match Text.dropLead? word c.rest with
    | some rest => some (v, ⟨c.offset + word.length, rest⟩)
    | none => readConstant? c more

mutual

/-- A value at the cursor. Every step takes a character, so a bound of the text's length is never
met. -/
def readValue : Nat → Cursor → Except Fault (Json × Cursor)
  | 0, c => c.fault .value
  | fuel + 1, c =>
    match c.rest with
    | '"' :: cs => (readString c.offset none (c.offset + 1) cs).map fun r => (.text r.1, r.2)
    | '[' :: cs =>
      let inner := skipSpace (c.offset + 1) cs
      match inner.rest with
      | ']' :: rest => .ok (.list [], ⟨inner.offset + 1, rest⟩)
      | _ => (readElements fuel inner).map fun r => (.list r.1, r.2)
    | '\x7b' :: cs =>
      let inner := skipSpace (c.offset + 1) cs
      match inner.rest with
      | '\x7d' :: rest => .ok (.object [], ⟨inner.offset + 1, rest⟩)
      | _ => (readMembers fuel inner []).map fun r => (.object r.1, r.2)
    | _ => match readConstant? c constants with
      | some r => .ok r
      | none => readNumber c

/-- The elements of a list from the first one on, and the closing bracket. -/
def readElements : Nat → Cursor → Except Fault (List Json × Cursor)
  | 0, c => c.fault .value
  | fuel + 1, c =>
    match readValue fuel c with
    | .error f => .error f
    | .ok (v, next) =>
      let next := next.skip
      match next.rest with
      | ']' :: rest => .ok ([v], ⟨next.offset + 1, rest⟩)
      | ',' :: rest =>
        (readElements fuel (skipSpace (next.offset + 1) rest)).map fun r => (v :: r.1, r.2)
      | _ => next.fault .comma

/-- The members of an object from a name on, and the closing brace. -/
def readMembers : Nat → Cursor → List (Text × Json) → Except Fault (List (Text × Json) × Cursor)
  | 0, c, _ => c.fault .name
  | fuel + 1, c, seen =>
    match c.rest with
    | '"' :: cs =>
      match readString c.offset none (c.offset + 1) cs with
      | .error f => .error f
      | .ok (name, next) =>
        let next := next.skip
        match next.rest with
        | ':' :: rest =>
          match readValue fuel (skipSpace (next.offset + 1) rest) with
          | .error f => .error f
          | .ok (v, next) =>
            let next := next.skip
            match next.rest with
            | '\x7d' :: rest => .ok (put name v seen, ⟨next.offset + 1, rest⟩)
            | ',' :: rest =>
              readMembers fuel (skipSpace (next.offset + 1) rest) (put name v seen)
            | _ => next.fault .comma
        | _ => next.fault .colon
    | _ => c.fault .name

end

def read (source : Text) : Except Fault Json :=
  match source with
  | '\uFEFF' :: _ => .error ⟨.byteOrderMark, 0⟩
  | _ =>
    match readValue (source.length + 1) (skipSpace 0 source) with
    | .error f => .error f
    | .ok (v, next) =>
      let next := next.skip
      if next.rest.isEmpty then .ok v else next.fault .extra

end Lockstep.Json
