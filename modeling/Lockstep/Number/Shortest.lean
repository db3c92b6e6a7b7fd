import Lockstep.Number.Binary64
/-!
The shortest decimal text of a float: the fewest digits that read back, and of those the nearest.
It is written positionally from `1e-4` up to below `1e16` and with an exponent of at least two
digits beyond; a whole number keeps `.0`.
-/

set_option autoImplicit false

namespace Lockstep.Binary64

/-- The place of the leading digit: the least `k` with `num / den < 10 ^ k`. -/
def leadingPlace (num den : Nat) : Int :=
  if den ≤ num then (Text.ofNat (num / den)).length
  else
    let q := (den + num - 1) / num
    if q ≤ 1 then 0 else 1 - ((Text.ofNat (q - 1)).length : Int)

/-- `num / den / 10 ^ e` as a quotient of whole numbers. -/
def decimalScaled (num den : Nat) : Int → Nat × Nat
  | .ofNat e => (num, den * Nat.pow 10 e)
  | .negSucc e => (num * Nat.pow 10 (e + 1), den)

/-- The neighbours of the value on the grid of multiples of `10 ^ e` that read back, nearest
first; a tie goes to the even one. -/
def candidates (m : Nat) (x : Int) (e : Int) : List Nat :=
  let r := ratio m x
  let s := decimalScaled r.1 r.2 e
  let low := s.1 / s.2
  let near := roundDiv s.1 s.2
  let far := if near = low then low + 1 else low
  [near, far].filter fun d => ofDecimal false d e == .finite false m x

def shortestFrom (m : Nat) (x : Int) (place : Int) (count : Nat) : Nat → Nat × Int
  | 0 =>
    let e := place - (count : Int)
    let r := ratio m x
    let s := decimalScaled r.1 r.2 e
    (roundDiv s.1 s.2, e)
  | fuel + 1 =>
    match candidates m x (place - (count : Int)) with
    | d :: _ => (d, place - (count : Int))
    | [] => shortestFrom m x place (count + 1) fuel

/-- Digits and power of ten of the shortest decimal that reads back; seventeen digits always
suffice. -/
def shortest (m : Nat) (x : Int) : Nat × Int :=
  let r := ratio m x
  shortestFrom m x (leadingPlace r.1 r.2) 1 17

def dropTrailingZeros (digits : Text) : Text :=
  (digits.reverse.dropWhile (· == '0')).reverse

def exponentText (e : Int) : Text :=
  let digits := Text.ofNat e.natAbs
  'e' :: (if e < 0 then '-' else '+') :: (List.replicate (2 - digits.length) '0' ++ digits)

/-- Digits with the point after the first `point` of them. -/
def placed (digits : Text) (point : Int) : Text :=
  if point ≤ -4 ∨ 16 < point then
    (match digits with
      | [] => []
      | [d] => [d]
      | d :: ds => d :: '.' :: ds) ++ exponentText (point - 1)
  else if point ≤ 0 then
    '0' :: '.' :: (List.replicate point.natAbs '0' ++ digits)
  else
    let n := point.natAbs
    if digits.length ≤ n then digits ++ List.replicate (n - digits.length) '0' ++ ['.', '0']
    else digits.take n ++ '.' :: digits.drop n

def magnitudeText (m : Nat) (x : Int) : Text :=
  if m = 0 then ['0', '.', '0']
  else
    let s := shortest m x
    let all := Text.ofNat s.1
    placed (dropTrailingZeros all) (all.length + s.2)

def signText (negative : Bool) : Text := if negative then ['-'] else []

def display : Binary64 → Text
  | .nan => "nan".toList
  | .infinite negative => signText negative ++ "inf".toList
  | .finite negative m x => signText negative ++ magnitudeText m x

end Lockstep.Binary64
