import Lockstep.Number.Binary64
import Lockstep.Text.Blank
import Lockstep.Text.Digit
/-!
Numbers as people write them. White space around a literal is ignored, digits may be of any
script, and single low lines may stand between digits.
-/

set_option autoImplicit false

namespace Lockstep.Literal

/-- White space around a literal; the information separators are not of it. -/
def isMargin (c : Char) : Bool :=
  Text.isBlank c && !(decide (0x1C ≤ c.toNat) && decide (c.toNat ≤ 0x1F))

/-- A literal without its margins, with the digits of every script as those of ASCII. -/
def plain (t : Text) : Text :=
  (Text.trim isMargin t).map fun c =>
    match Text.digitValue? c with
    | some d => Char.ofNat (48 + d)
    | none => c

def sign : Text → Bool × Text
  | '-' :: cs => (true, cs)
  | '+' :: cs => (false, cs)
  | cs => (false, cs)

/-- Removes the low lines; each must stand between two digits. -/
def joined (before : Option Char) : Text → Option Text
  | [] => if before = some '_' then none else some []
  | c :: cs =>
    if c = '_' then
      match before with
      | some b => if b.isDigit then joined (some '_') cs else none
      | none => none
    else if before = some '_' ∧ ¬ c.isDigit then none
    else (joined (some c) cs).map (c :: ·)

def valueFrom (n : Nat) : Text → Nat
  | [] => n
  | c :: cs => valueFrom (n * 10 + (c.toNat - 48)) cs

def natOf? (digits : Text) : Option Nat :=
  if digits.isEmpty || !digits.all Char.isDigit then none else some (valueFrom 0 digits)

def int? (t : Text) : Option Int := do
  let (negative, body) := sign (plain t)
  let digits ← joined none body
  let n ← natOf? digits
  pure (if negative then -(n : Int) else n)

/-- Digits with at most one point, as one number and the count of digits after the point. -/
def decimal? (t : Text) : Option (Nat × Nat) :=
  let whole := t.takeWhile Char.isDigit
  match t.dropWhile Char.isDigit with
  | [] => (natOf? whole).map (·, 0)
  | '.' :: rest =>
    if rest.all Char.isDigit then (natOf? (whole ++ rest)).map (·, rest.length) else none
  | _ => none

def exponent? (t : Text) : Option Int :=
  let (negative, body) := sign t
  (natOf? body).map fun n => if negative then -(n : Int) else n

def isMarker (c : Char) : Bool := c == 'e' || c == 'E'

/-- A number with an optional point and an optional power of ten. -/
def scientific? (negative : Bool) (t : Text) : Option Binary64 := do
  let (digits, places) ← decimal? (t.takeWhile (!isMarker ·))
  let power ← match t.dropWhile (!isMarker ·) with
    | [] => some 0
    | _ :: rest => exponent? rest
  pure (.ofDecimal negative digits (power - places))

/-- A float: a number, `nan`, or infinity in either of its spellings and any case. -/
def float? (t : Text) : Option Binary64 := do
  let body ← joined none (plain t)
  let (negative, body) := sign body
  let word := body.map Char.toLower
  if word = "nan".toList then pure .nan
  else if word = "inf".toList ∨ word = "infinity".toList then pure (.infinite negative)
  else scientific? negative body

end Lockstep.Literal
