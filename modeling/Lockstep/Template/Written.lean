import Lockstep.Number.Places
import Lockstep.Template.Spec
/-!
Values written by a specification. A number is laid out as sign, lead (`0x`), digits in groups,
and the rest from the point on; what is missing to the width is filled where the alignment says.
-/

set_option autoImplicit false

namespace Lockstep.Template

def greatestWidth : Nat := Nat.pow 2 36

def checkWidth (s : Spec) : Except Failure Unit :=
  if greatestWidth ≤ s.width.getD 0 then .error .memory else .ok ()

def filled (c : Char) (n : Nat) : Text := List.replicate n c

def aligned (s : Spec) (head body : Text) : Text :=
  let missing := s.width.getD 0 - (head.length + body.length)
  match s.align with
  | .left => head ++ body ++ filled s.fill missing
  | .right => filled s.fill missing ++ head ++ body
  | .center => filled s.fill (missing / 2) ++ head ++ body ++ filled s.fill (missing - missing / 2)
  | .inside => head ++ filled s.fill missing ++ body

/-- A specification that a text can be written by. -/
def textSpec (kind source : Text) : Except Failure Spec := do
  let s ← (readSpec kind .left (some 's') source).mapError .misuse
  match s.code with
  | some 's' =>
    match s.sign with
    | some ' ' => throw (.misuse .textSpace)
    | some _ => throw (.misuse .textSign)
    | none =>
      if s.noNegativeZero then throw (.misuse .textNegativeZero)
      if s.alternate then throw (.misuse .textAlternate)
      if s.align = .inside then throw (.misuse .textPadding)
      checkWidth s
      return s
  | code => throw (.misuse (.unknownCode (code.getD '\x00') kind))

/-- A text is cut to the precision. -/
def writeText (kind source t : Text) : Except Failure Text := do
  if source.isEmpty then return t
  let s ← textSpec kind source
  return aligned s [] (match s.precision with
    | some p => t.take p
    | none => t)

/-- Digits in groups from the right, both digits and result reversed, with zeros in front up to a
width. A separator stands only between digits. -/
def groups (separator : Char) (size : Nat) : Nat → Text → Int → Text
  | 0, digits, _ => digits
  | fuel + 1, digits, width =>
    let len := min size (max (max digits.length width.toNat) 1)
    let part := digits.take len
    let part := part ++ filled '0' (len - part.length)
    let rest := digits.drop len
    let width := width - (len : Int)
    if rest.isEmpty && width ≤ 0 then part
    else part ++ separator :: groups separator size fuel rest (width - 1)

def grouped (separator : Option (Char × Nat)) (width : Int) (digits : Text) : Text :=
  if digits.isEmpty then []
  else match separator with
    | none => filled '0' (width.toNat - digits.length) ++ digits
    | some (c, size) =>
      (groups c size (digits.length + width.toNat) digits.reverse width).reverse

def signOf (s : Spec) (negative : Bool) : Text :=
  if negative then ['-']
  else match s.sign with
    | some '+' => ['+']
    | some ' ' => [' ']
    | _ => []

/-- The size of the groups goes with the base. -/
def groupsOf (s : Spec) : Option (Char × Nat) :=
  s.separator.map fun c => (c, if isBaseCode s.code then 4 else 3)

def writeNumber (s : Spec) (negative : Bool) (lead digits rest : Text) : Except Failure Text := do
  checkWidth s
  let sign := signOf s negative
  let others : Int := sign.length + lead.length + rest.length
  let width : Int := if s.fill = '0' ∧ s.align = .inside then s.width.getD 0 - others else 0
  return aligned s (sign ++ lead) (grouped (groupsOf s) width digits ++ rest)

def isFloatCode : Option Char → Bool
  | none => false
  | some c => "eEfFgG%".toList.contains c

/-- The text of a magnitude up to its sign. -/
def floatBody (s : Spec) (m : Nat) (x : Int) : Text :=
  let precision := s.precision.getD 6
  match s.code with
  | some 'e' | some 'E' =>
    Binary64.exponentForm s.alternate (precision + 1) (Binary64.significant m x (precision + 1))
  | some 'f' | some 'F' => Binary64.fixedText s.alternate precision m x
  | some 'g' | some 'G' | some 'n' =>
    let p := max precision 1
    Binary64.generalForm s.alternate false p (if s.alternate then p else 0)
      (Binary64.significant m x p)
  | _ => match s.precision with
    | some p =>
      let p := max p 1
      Binary64.generalForm s.alternate true (p - 1) (if s.alternate then p else 0)
        (Binary64.significant m x p)
    | none => Binary64.generalForm s.alternate true 16 0 (Binary64.shortestDecimal m x)

def isUpperCode : Option Char → Bool
  | none => false
  | some c => "EFG".toList.contains c

/-- A hundred times a float, for a percentage. -/
def hundredfold : Binary64 → Binary64
  | .finite negative m x =>
    let r := Binary64.ratio m x
    .ofRatio negative (100 * r.1) r.2
  | f => f

def writeFloatBy (s : Spec) (f : Binary64) : Except Failure Text := do
  if Nat.pow 2 31 - 1 < s.precision.getD 0 then throw (.misuse .precisionTooBig)
  let percent := s.code == some '%'
  let f := if percent then hundredfold f else f
  let tail : Text := if percent then ['%'] else []
  let s' := if percent then { s with code := some 'f' } else s
  let (negative, body) : Bool × Text := match f with
    | .nan => (false, "nan".toList)
    | .infinite negative => (negative, "inf".toList)
    | .finite negative m x => (negative, floatBody s' m x)
  let negative := negative && !(s.noNegativeZero && body.all fun c => !('1' ≤ c && c ≤ '9'))
  let body := (if isUpperCode s.code then body.map Char.toUpper else body) ++ tail
  writeNumber s negative [] (body.takeWhile Char.isDigit) (body.dropWhile Char.isDigit)

def writeFloat (source : Text) (f : Binary64) : Except Failure Text := do
  if source.isEmpty then return f.display
  let s ← (readSpec "float".toList .right none source).mapError .misuse
  match s.code with
  | none => writeFloatBy s f
  | some c =>
    if isFloatCode s.code || c == 'n' then writeFloatBy s f
    else throw (.misuse (.unknownCode c "float".toList))

/-- The base of a code, and the mark of that base. -/
def baseOf : Option Char → Nat × Text
  | some 'b' => (2, "0b".toList)
  | some 'o' => (8, "0o".toList)
  | some 'x' => (16, "0x".toList)
  | some 'X' => (16, "0X".toList)
  | _ => (10, [])

def writeCharacter (s : Spec) (i : Int) : Except Failure Text := do
  if s.sign.isSome then throw (.misuse .codeSign)
  if s.alternate then throw (.misuse .codeAlternate)
  if i < 0 ∨ 0x10FFFF < i then throw .overflow
  writeNumber s false [] [] [Char.ofNat i.toNat]

def writeWholeBy (s : Spec) (i : Int) : Except Failure Text := do
  if s.precision.isSome then throw (.misuse .wholePrecision)
  if s.noNegativeZero then throw (.misuse .wholeNegativeZero)
  if s.code = some 'c' then writeCharacter s i
  else
    let (base, mark) := baseOf s.code
    let digits := Nat.toDigits base i.natAbs
    let digits := if s.code = some 'X' then digits.map Char.toUpper else digits
    writeNumber s (i < 0) (if s.alternate then mark else []) digits []

def isWholeCode (c : Char) : Bool := "bcdoxXn".toList.contains c

/-- A whole number, also of the kind of truth values. -/
def writeWhole (kind source : Text) (i : Int) : Except Failure Text := do
  let s ← (readSpec kind .right (some 'd') source).mapError .misuse
  if isFloatCode s.code then
    match Binary64.ofInt i with
    | .infinite _ => throw .overflow
    | f => writeFloatBy s f
  else match s.code with
    | some c =>
      if isWholeCode c then writeWholeBy s i else throw (.misuse (.unknownCode c kind))
    | none => writeWholeBy s i

end Lockstep.Template
