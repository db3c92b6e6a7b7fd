import Lockstep.Text.Basic
/-!
Binary floating-point numbers of 64 bits, as data: a finite one is a sign, a whole significand and
a power of two. Rounding is exact integer arithmetic, to the nearest number and to the even
significand of a tie.
-/

set_option autoImplicit false

namespace Lockstep

/-- A finite number is `± significand · 2 ^ exponent`, with a significand below `2 ^ 53` that is at
least `2 ^ 52` unless the exponent is the least one, `-1074`. -/
inductive Binary64 where
  | nan
  | infinite (negative : Bool)
  | finite (negative : Bool) (significand : Nat) (exponent : Int)
  deriving DecidableEq, Repr

namespace Binary64

def leastExponent : Int := -1074
def greatestExponent : Int := 971

def zero (negative : Bool) : Binary64 := .finite negative 0 leastExponent

/-- The whole number nearest to a quotient; of two the even one. -/
def roundDiv (num den : Nat) : Nat :=
  let q := num / den
  let twice := 2 * (num % den)
  if twice < den then q else if den < twice then q + 1 else if q % 2 = 0 then q else q + 1

theorem roundDiv_of_dvd {num den : Nat} (hd : 0 < den) (h : den ∣ num) :
    roundDiv num den = num / den := by
  simp [roundDiv, Nat.mod_eq_zero_of_dvd h, hd]

/-- `num / den / 2 ^ e` as a quotient of whole numbers. -/
def scaled (num den : Nat) : Int → Nat × Nat
  | .ofNat e => (num, den * Nat.pow 2 e)
  | .negSucc e => (num * Nat.pow 2 (e + 1), den)

/-- The exponent at which a positive quotient has a significand of 53 bits. -/
def unitExponent (num den : Nat) : Int :=
  let guess : Int := (Nat.log2 num : Int) - (Nat.log2 den : Int) - 52
  let s := scaled num den guess
  if s.1 / s.2 < Nat.pow 2 52 then guess - 1 else guess

/-- The number nearest to `± num / den`. -/
def ofRatio (negative : Bool) (num den : Nat) : Binary64 :=
  if num = 0 then zero negative
  else
    let e := max (unitExponent num den) leastExponent
    let s := scaled num den e
    let m := roundDiv s.1 s.2
    let (m, e) := if m = Nat.pow 2 53 then (Nat.pow 2 52, e + 1) else (m, e)
    if greatestExponent < e then .infinite negative else .finite negative m e

/-- The number nearest to `± digits · 10 ^ exponent`. Far beyond both ends of the range the answer
is known without the power. -/
def ofDecimal (negative : Bool) (digits : Nat) (exponent : Int) : Binary64 :=
  let size : Int := (Text.ofNat digits).length
  if digits = 0 then zero negative
  else if 400 < exponent + size then .infinite negative
  else if exponent + size < -400 then zero negative
  else match exponent with
    | .ofNat e => ofRatio negative (digits * Nat.pow 10 e) 1
    | .negSucc e => ofRatio negative digits (Nat.pow 10 (e + 1))

def ofInt (i : Int) : Binary64 := ofRatio (decide (i < 0)) i.natAbs 1

/-- The magnitude as a quotient of whole numbers. -/
def ratio (significand : Nat) : Int → Nat × Nat
  | .ofNat e => (significand * Nat.pow 2 e, 1)
  | .negSucc e => (significand, Nat.pow 2 (e + 1))

/-- Toward zero; not a number and infinity have no whole part. -/
def trunc? : Binary64 → Option Int
  | .finite negative m e =>
    let r := ratio m e
    let n := r.1 / r.2
    some (if negative then -(n : Int) else n)
  | _ => none

/-- The whole number that a float is equal to, if there is one. -/
def toInt? : Binary64 → Option Int
  | .finite negative m e =>
    let r := ratio m e
    if r.1 % r.2 = 0 then trunc? (.finite negative m e) else none
  | _ => none

def isZero : Binary64 → Bool
  | .finite _ 0 _ => true
  | _ => false

end Binary64
end Lockstep
