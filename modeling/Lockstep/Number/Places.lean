import Lockstep.Number.Shortest
/-!
Floats written with a wanted number of digits. `Decimal` holds digits without trailing zeros and
the place of their point; the forms differ in how many digits they ask for and where they go over
to an exponent.
-/

set_option autoImplicit false

namespace Lockstep.Binary64

/-- The digits stand after a point that is moved right by `point`. -/
structure Decimal where
  digits : Text
  point : Int
  deriving DecidableEq, Repr

def Decimal.zero : Decimal := ⟨['0'], 1⟩

def Decimal.ofScaled (n : Nat) (e : Int) : Decimal :=
  let all := Text.ofNat n
  ⟨dropTrailingZeros all, all.length + e⟩

/-- The nearest decimal of so many digits. -/
def significant (m : Nat) (x : Int) (count : Nat) : Decimal :=
  if m = 0 then .zero
  else
    let r := ratio m x
    let e := leadingPlace r.1 r.2 - (count : Int)
    let s := decimalScaled r.1 r.2 e
    .ofScaled (roundDiv s.1 s.2) e

def shortestDecimal (m : Nat) (x : Int) : Decimal :=
  if m = 0 then .zero
  else
    let s := shortest m x
    .ofScaled s.1 s.2

def padRight (count : Nat) (digits : Text) : Text :=
  digits ++ List.replicate (count - digits.length) '0'

/-- A point stands before a fraction, and also without one where it is to be kept. -/
def pointed (keep : Bool) (whole fraction : Text) : Text :=
  if fraction.isEmpty && !keep then whole else whole ++ '.' :: fraction

/-- So many places after the point. -/
def fixedText (keep : Bool) (places : Nat) (m : Nat) (x : Int) : Text :=
  let r := ratio m x
  let all := Text.ofNat (roundDiv (r.1 * Nat.pow 10 places) r.2)
  let all := List.replicate (places + 1 - all.length) '0' ++ all
  pointed keep (all.take (all.length - places)) (all.drop (all.length - places))

def exponentForm (keep : Bool) (count : Nat) (d : Decimal) : Text :=
  match padRight count d.digits with
  | [] => []
  | c :: cs => pointed keep [c] cs ++ exponentText (d.point - 1)

/-- At least `count` digits, the point among them. -/
def positionalForm (keep : Bool) (count : Nat) (d : Decimal) : Text :=
  if d.point ≤ 0 then
    '0' :: '.' :: (List.replicate d.point.natAbs '0' ++ padRight count d.digits)
  else
    let n := d.point.natAbs
    let all := padRight (max count n) d.digits
    pointed keep (all.take n) (all.drop n)

/-- The shorter of both forms: positional from `1e-4` up to `limit` digits before the point. -/
def generalForm (keep whole : Bool) (limit : Int) (count : Nat) (d : Decimal) : Text :=
  if d.point ≤ -4 ∨ limit < d.point then exponentForm keep count d
  else positionalForm keep (if whole then max count (d.point.toNat + 1) else count) d

end Lockstep.Binary64
