import Lockstep.Text.Basic
/-!
Reading octets as UTF-8. The reader holds the character that it is in the middle of; the first
octet that rules the text out, or an end inside a character, is reported with the octets that
belong to the faulty start.
-/

set_option autoImplicit false

namespace Lockstep.Text.Utf8

inductive Reason where
  | start | continuation | ended
  deriving DecidableEq, Repr

/-- The octets `start`, …, `start + length - 1` are no character; `lead` is the first of them. -/
structure Fault where
  start : Nat
  length : Nat
  lead : UInt8
  reason : Reason
  deriving DecidableEq, Repr

def Reason.message : Reason → Text
  | .start => "invalid start byte".toList
  | .continuation => "invalid continuation byte".toList
  | .ended => "unexpected end of data".toList

def Fault.message (f : Fault) : Text :=
  "'utf-8' codec can't decode ".toList ++
  (if f.length = 1 then
    "byte 0x".toList ++ hex 2 f.lead.toNat ++ " in position ".toList ++ ofNat f.start
  else
    "bytes in position ".toList ++ ofNat f.start ++ ['-'] ++ ofNat (f.start + f.length - 1)) ++
  ": ".toList ++ f.reason.message

/-- A character under way: its first octet and where that stood, how many octets were seen and
how many are owed, the bounds on the next one, and the bits so far. -/
structure Pending where
  start : Nat
  lead : UInt8
  seen : Nat
  owed : Nat
  low : Nat
  high : Nat
  bits : Nat

/-- What a first octet beyond ASCII promises; overlong forms, surrogates and code points beyond
the last are ruled out by the bounds on the second octet. -/
def opening? (start : Nat) (b : UInt8) : Option Pending :=
  let n := b.toNat
  if 0xC2 ≤ n ∧ n ≤ 0xDF then some ⟨start, b, 1, 1, 0x80, 0xBF, n - 0xC0⟩
  else if n = 0xE0 then some ⟨start, b, 1, 2, 0xA0, 0xBF, 0⟩
  else if n = 0xED then some ⟨start, b, 1, 2, 0x80, 0x9F, 0xD⟩
  else if 0xE1 ≤ n ∧ n ≤ 0xEF then some ⟨start, b, 1, 2, 0x80, 0xBF, n - 0xE0⟩
  else if n = 0xF0 then some ⟨start, b, 1, 3, 0x90, 0xBF, 0⟩
  else if 0xF1 ≤ n ∧ n ≤ 0xF3 then some ⟨start, b, 1, 3, 0x80, 0xBF, n - 0xF0⟩
  else if n = 0xF4 then some ⟨start, b, 1, 3, 0x80, 0x8F, 4⟩
  else none

def decodeFrom (pos : Nat) : Option Pending → List UInt8 → Except Fault Text
  | none, [] => .ok []
  | some p, [] => .error ⟨p.start, p.seen, p.lead, .ended⟩
  | none, b :: bs =>
    if b.toNat < 0x80 then
      match decodeFrom (pos + 1) none bs with
      | .ok t => .ok (Char.ofNat b.toNat :: t)
      | .error f => .error f
    else match opening? pos b with
      | none => .error ⟨pos, 1, b, .start⟩
      | some p => decodeFrom (pos + 1) (some p) bs
  | some p, b :: bs =>
    if p.low ≤ b.toNat ∧ b.toNat ≤ p.high then
      let bits := p.bits * 64 + (b.toNat - 0x80)
      if p.owed ≤ 1 then
        match decodeFrom (pos + 1) none bs with
        | .ok t => .ok (Char.ofNat bits :: t)
        | .error f => .error f
      else
        decodeFrom (pos + 1) (some ⟨p.start, p.lead, p.seen + 1, p.owed - 1, 0x80, 0xBF, bits⟩) bs
    else .error ⟨p.start, p.seen, p.lead, .continuation⟩

def decode (bs : List UInt8) : Except Fault Text := decodeFrom 0 none bs

def encode (t : Text) : List UInt8 := t.flatMap String.utf8EncodeChar

end Lockstep.Text.Utf8
