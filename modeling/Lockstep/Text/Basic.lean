/-!
Text is a list of characters. This module holds the plain operations on it: written numbers,
joining, replacement, trimming, and the classes of characters that are given by ranges.
-/

set_option autoImplicit false

namespace Lockstep

abbrev Text := List Char

namespace Text

def ofNat (n : Nat) : Text := Nat.toDigits 10 n

def ofInt : Int → Text
  | .ofNat n => ofNat n
  | .negSucc n => '-' :: ofNat (n + 1)

def hexDigit (n : Nat) : Char :=
  if n < 10 then Char.ofNat (48 + n) else Char.ofNat (87 + n)

/-- The last `width` hexadecimal digits of a number, in lower case. -/
def hex : Nat → Nat → Text
  | 0, _ => []
  | width + 1, n => hex width (n / 16) ++ [hexDigit (n % 16)]

@[simp] theorem hex_length (width n : Nat) : (hex width n).length = width := by
  induction width generalizing n with
  | zero => rfl
  | succ width ih => simp [hex, ih]

def hexValue? (c : Char) : Option Nat :=
  if '0' ≤ c ∧ c ≤ '9' then some (c.toNat - 48)
  else if 'a' ≤ c ∧ c ≤ 'f' then some (c.toNat - 87)
  else if 'A' ≤ c ∧ c ≤ 'F' then some (c.toNat - 55)
  else none

def join (sep : Text) : List Text → Text
  | [] => []
  | [t] => t
  | t :: u :: rest => t ++ sep ++ join sep (u :: rest)

@[simp] theorem join_singleton (sep t : Text) : join sep [t] = t := rfl

def unlines (ts : List Text) : Text := join ['\n'] ts

/-- Every `old` becomes `new`. -/
def replaceChar (old : Char) (new : Text) : Text → Text
  | [] => []
  | c :: cs => if c = old then new ++ replaceChar old new cs else c :: replaceChar old new cs

/-- What follows `lead`, if the text starts with it. -/
def dropLead? : Text → Text → Option Text
  | [], cs => some cs
  | _ :: _, [] => none
  | l :: ls, c :: cs => if l = c then dropLead? ls cs else none

theorem dropLead?_append (lead rest : Text) : dropLead? lead (lead ++ rest) = some rest := by
  induction lead with
  | nil => rfl
  | cons l ls ih => simp [dropLead?, ih]

theorem eq_append_of_dropLead? {lead cs rest : Text} (h : dropLead? lead cs = some rest) :
    cs = lead ++ rest := by
  induction lead generalizing cs with
  | nil => simpa [dropLead?] using h
  | cons l ls ih =>
    cases cs with
    | nil => simp [dropLead?] at h
    | cons c cs =>
      by_cases hc : l = c
      · simp only [dropLead?, hc, if_true] at h
        simp [hc, ih h]
      · simp [dropLead?, hc] at h

/-- Carriage returns end lines: a pair with a newline counts once. -/
def unifyNewlines : Text → Text
  | [] => []
  | '\r' :: '\n' :: cs => '\n' :: unifyNewlines cs
  | '\r' :: cs => '\n' :: unifyNewlines cs
  | c :: cs => c :: unifyNewlines cs

/-- Removes the characters of a class at both ends. -/
def trim (cls : Char → Bool) (t : Text) : Text :=
  ((t.dropWhile cls).reverse.dropWhile cls).reverse

def splitAtChar (sep : Char) : Text → List Text
  | [] => [[]]
  | c :: cs =>
    if c = sep then [] :: splitAtChar sep cs
    else match splitAtChar sep cs with
      | [] => [[c]]
      | t :: ts => (c :: t) :: ts

/-- Order by code points, a shorter text before what extends it. -/
def precedes : Text → Text → Bool
  | [], _ => true
  | _ :: _, [] => false
  | a :: as, b :: bs => if a = b then precedes as bs else decide (a.toNat < b.toNat)

/-- Ranges of code points, both ends included. -/
abbrev Ranges := List (Nat × Nat)

def Ranges.has (rs : Ranges) (c : Char) : Bool :=
  rs.any fun r => decide (r.1 ≤ c.toNat) && decide (c.toNat ≤ r.2)

end Text
end Lockstep
