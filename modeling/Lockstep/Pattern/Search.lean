import Lockstep.Pattern.Reader
/-!
Searching text for a pattern. A match tries its ways in order and goes on with what follows; the
first way that reaches the end of the pattern is the match. A repetition does not start another
round where its last one started, so every search ends.
-/

set_option autoImplicit false

namespace Lockstep.Pattern

/-- A place in a text: what stands before it, last character first, what stands after it, and what
the groups have read. -/
structure Spot where
  offset : Nat
  before : Text
  after : Text
  groups : List (Nat × Text)

def Spot.ofText (t : Text) : Spot := ⟨0, [], t, []⟩

def Spot.advance (s : Spot) : Option (Char × Spot) :=
  match s.after with
  | [] => none
  | c :: cs => some (c, { s with offset := s.offset + 1, before := c :: s.before, after := cs })

/-- The place that many characters before, if the text reaches back so far. -/
def Spot.back (s : Spot) : Nat → Option Spot
  | 0 => some s
  | n + 1 =>
    match s.before with
    | [] => none
    | c :: cs => Spot.back { s with offset := s.offset - 1, before := cs, after := c :: s.after } n

def Spot.capture (s : Spot) (index : Nat) (t : Text) : Spot :=
  { s with groups := (index, t) :: s.groups.filter (·.1 != index) }

def isAsciiBlank (c : Char) : Bool :=
  c == ' ' || (decide (9 ≤ c.toNat) && decide (c.toNat ≤ 13))

def Category.has (f : Flags) (c : Char) : Category → Bool
  | .digit => if f.ascii then c.isDigit else (Text.digitValue? c).isSome
  | .space => if f.ascii then isAsciiBlank c else Text.isBlank c
  | .word => if f.ascii then Text.isAsciiWord c else Text.isWord c

/-- The code points that a character matches when case does not count, besides those that it
matches in any case: the characters with the same small letter. -/
def foldings (f : Flags) (c : Char) : List Nat :=
  if f.ascii then
    let l := c.toLower
    [l.toNat, l.toUpper.toNat]
  else
    (Text.caseVariants (Text.lower c)).flatMap fun v => v :: Text.capitals (Char.ofNat v)

def candidates (f : Flags) (c : Char) : List Nat :=
  if f.ignoreCase then c.toNat :: foldings f c else [c.toNat]

def Member.has (f : Flags) (c : Char) (codes : List Nat) : Member → Bool
  | .code n => codes.contains n
  | .range first last => codes.any fun n => decide (first ≤ n) && decide (n ≤ last)
  | .category k positive => k.has f c == positive

def setHas (f : Flags) (negated : Bool) (members : List Member) (c : Char) : Bool :=
  (members.any (·.has f c (candidates f c))) != negated

def isWordAt (f : Flags) : Option Char → Bool
  | some c => Category.has f c .word
  | none => false

def Anchor.holds (f : Flags) (s : Spot) : Anchor → Bool
  | .textStart => s.before.isEmpty
  | .textFinish => s.after.isEmpty
  | .start => s.before.isEmpty || (f.lines && s.before.head? == some '\n')
  | .finish =>
    s.after.isEmpty || s.after == ['\n'] || (f.lines && s.after.head? == some '\n')
  | .boundary => isWordAt f s.before.head? != isWordAt f s.after.head?
  | .noBoundary =>
    !(s.before.isEmpty && s.after.isEmpty) &&
      isWordAt f s.before.head? == isWordAt f s.after.head?

def sameChar (f : Flags) (a b : Char) : Bool :=
  if f.ignoreCase then
    if f.ascii then a.toLower == b.toLower else Text.lower a == Text.lower b
  else a == b

def readBack (f : Flags) : Text → Spot → Option Spot
  | [], s => some s
  | c :: cs, s =>
    match s.advance with
    | some (d, s) => if sameChar f c d then readBack f cs s else none
    | none => none

abbrev Rest := Spot → Option Spot
abbrev Body := Spot → Rest → Option Spot

/-- Rounds of a repetition. `last` is the place where the latest round beyond the least count
started. The rounds left are counted down from a bound that is never met. -/
def rounds (body : Body) (mode : Mode) (least : Nat) (most : Option Nat) :
    Nat → Nat → Option Nat → Body
  | 0, _, _, _, _ => none
  | fuel + 1, count, last, s, rest =>
    if count < least then
      match mode with
      | .possessive =>
        match body s some with
        | some s => rounds body mode least most fuel (count + 1) last s rest
        | none => none
      | _ => body s fun s => rounds body mode least most fuel (count + 1) last s rest
    else
      let more := (match most with
        | some m => decide (count < m)
        | none => true) && last != some s.offset
      match mode with
      | .greedy =>
        match (if more then
          body s fun s' => rounds body mode least most fuel (count + 1) (some s.offset) s' rest
          else none) with
        | some r => some r
        | none => rest s
      | .lazy =>
        match rest s with
        | some r => some r
        | none =>
          if more then
            body s fun s' => rounds body mode least most fuel (count + 1) (some s.offset) s' rest
          else none
      | .possessive =>
        match (if more then body s some else none) with
        | some s' => rounds body mode least most fuel (count + 1) (some s.offset) s' rest
        | none => rest s

mutual

def Node.run (f : Flags) : Node → Body
  | .code n, s, rest =>
    match s.advance with
    | some (c, s) => if (candidates f c).contains n then rest s else none
    | none => none
  | .any, s, rest =>
    match s.advance with
    | some (c, s) => if f.dotAll || c != '\n' then rest s else none
    | none => none
  | .set negated members, s, rest =>
    match s.advance with
    | some (c, s) => if setHas f negated members c then rest s else none
    | none => none
  | .anchor a, s, rest => if a.holds f s then rest s else none
  | .branch alternatives, s, rest => runAlternatives f alternatives s rest
  | .group index on off body, s, rest =>
    runSequence (f.inner on off) body s fun s' =>
      match index with
      | none => rest s'
      | some i => rest (s'.capture i (s.after.take (s'.offset - s.offset)))
  | .atomic body, s, rest =>
    match runSequence f body s some with
    | some s => rest s
    | none => none
  | .repetition mode least most body, s, rest =>
    rounds (fun s rest => runSequence f body s rest) mode least most
      (least + s.after.length + 2) 0 none s rest
  | .look behind positive body, s, rest =>
    let found := match s.back (match behind with
        | some w => w.1
        | none => 0) with
      | some start => runSequence f body start some
      | none => none
    match found, positive with
    | some s', true => rest { s with groups := s'.groups }
    | none, false => rest s
    | _, _ => none
  | .backref index, s, rest =>
    match s.groups.lookup index with
    | some t =>
      match readBack f t s with
      | some s => rest s
      | none => none
    | none => none
  | .conditional index yes no, s, rest =>
    if (s.groups.lookup index).isSome then runSequence f yes s rest
    else match no with
      | some no => runSequence f no s rest
      | none => rest s

def runSequence (f : Flags) : List Node → Body
  | [], s, rest => rest s
  | n :: ns, s, rest => n.run f s fun s => runSequence f ns s rest

def runAlternatives (f : Flags) : List (List Node) → Body
  | [], _, _ => none
  | a :: as, s, rest =>
    match runSequence f a s rest with
    | some r => some r
    | none => runAlternatives f as s rest

end

def searchFrom (p : Pattern) : Nat → Spot → Bool
  | 0, _ => false
  | fuel + 1, s =>
    if (runSequence p.flags p.nodes s some).isSome then true
    else match s.advance with
      | some (_, s) => searchFrom p fuel s
      | none => false

end Pattern

def Pattern.occursIn (p : Pattern) (t : Text) : Bool :=
  Pattern.searchFrom p (t.length + 1) (Pattern.Spot.ofText t)

end Lockstep
