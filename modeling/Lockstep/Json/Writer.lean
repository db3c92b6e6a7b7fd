import Lockstep.Json.Basic
/-!
Writing JSON text, in ASCII. `layout` puts every element and member on a line of its own with two
spaces for each level; `line` puts all on one line.
-/

set_option autoImplicit false

namespace Lockstep.Json

/-- A character beyond the first plane takes two escapes. -/
def unitEscapes (n : Nat) : Text :=
  if n < 0x10000 then '\\' :: 'u' :: Text.hex 4 n
  else
    '\\' :: 'u' :: Text.hex 4 (0xD800 + (n - 0x10000) / 1024) ++
    '\\' :: 'u' :: Text.hex 4 (0xDC00 + (n - 0x10000) % 1024)

def escapedChar (c : Char) : Text :=
  if c = '"' then ['\\', '"']
  else if c = '\\' then ['\\', '\\']
  else if c = '\n' then ['\\', 'n']
  else if c = '\r' then ['\\', 'r']
  else if c = '\t' then ['\\', 't']
  else if c = '\x08' then ['\\', 'b']
  else if c = '\x0c' then ['\\', 'f']
  else if 0x20 ≤ c.toNat ∧ c.toNat < 0x7F then [c]
  else unitEscapes c.toNat

def writtenText (t : Text) : Text := '"' :: t.flatMap escapedChar ++ ['"']

def writtenFloat : Binary64 → Text
  | .nan => "NaN".toList
  | .infinite false => "Infinity".toList
  | .infinite true => "-Infinity".toList
  | f => f.display

def lineBreak (depth : Nat) : Text := '\n' :: List.replicate (2 * depth) ' '

mutual

def layoutAt (depth : Nat) : Json → Text
  | .null => "null".toList
  | .bool true => "true".toList
  | .bool false => "false".toList
  | .int i => Text.ofInt i
  | .float f => writtenFloat f
  | .text t => writtenText t
  | .list [] => "[]".toList
  | .list (x :: xs) => '[' :: layoutElements (depth + 1) (x :: xs) ++ lineBreak depth ++ [']']
  | .object [] => ['\x7b', '\x7d']
  | .object (m :: ms) =>
    '\x7b' :: layoutMembers (depth + 1) (m :: ms) ++ lineBreak depth ++ ['\x7d']

def layoutElements (depth : Nat) : List Json → Text
  | [] => []
  | [x] => lineBreak depth ++ layoutAt depth x
  | x :: y :: xs => lineBreak depth ++ layoutAt depth x ++ ',' :: layoutElements depth (y :: xs)

def layoutMembers (depth : Nat) : List (Text × Json) → Text
  | [] => []
  | [(n, x)] => lineBreak depth ++ writtenText n ++ ':' :: ' ' :: layoutAt depth x
  | (n, x) :: m :: ms =>
    lineBreak depth ++ writtenText n ++ ':' :: ' ' :: layoutAt depth x ++
      ',' :: layoutMembers depth (m :: ms)

end

def layout (v : Json) : Text := layoutAt 0 v

mutual

def line : Json → Text
  | .null => "null".toList
  | .bool true => "true".toList
  | .bool false => "false".toList
  | .int i => Text.ofInt i
  | .float f => writtenFloat f
  | .text t => writtenText t
  | .list xs => '[' :: lineElements xs ++ [']']
  | .object ms => '\x7b' :: lineMembers ms ++ ['\x7d']

def lineElements : List Json → Text
  | [] => []
  | [x] => line x
  | x :: y :: xs => line x ++ ',' :: lineElements (y :: xs)

def lineMembers : List (Text × Json) → Text
  | [] => []
  | [(n, x)] => writtenText n ++ ':' :: line x
  | (n, x) :: m :: ms => writtenText n ++ ':' :: line x ++ ',' :: lineMembers (m :: ms)

end

end Lockstep.Json
