import Lockstep.Text.Blank
import Lockstep.Text.Case
import Lockstep.Text.Digit
import Lockstep.Text.Word
/-!
Patterns over text: sequences of nodes, each of which reads some characters, tests a place, or
refers to what a group has read. Code points are numbers, since a pattern may name one that no
text holds.
-/

set_option autoImplicit false

namespace Lockstep.Pattern

inductive Category where
  | digit | space | word
  deriving DecidableEq, Repr

inductive Anchor where
  | start | finish | textStart | textFinish | boundary | noBoundary
  deriving DecidableEq, Repr

/-- What a character set lists. -/
inductive Member where
  | code (n : Nat)
  | range (first last : Nat)
  | category (c : Category) (positive : Bool)
  deriving DecidableEq, Repr

/-- How many rounds a repetition tries first, and whether it may come back to try others. -/
inductive Mode where
  | greedy | lazy | possessive
  deriving DecidableEq, Repr

/-- The ways of reading that a pattern can switch on. -/
structure Flags where
  ignoreCase : Bool := false
  lines : Bool := false
  dotAll : Bool := false
  spaced : Bool := false
  ascii : Bool := false
  unicode : Bool := false
  template : Bool := false
  deriving DecidableEq, Repr

inductive Node where
  | code (n : Nat)
  | any
  | set (negated : Bool) (members : List Member)
  | anchor (a : Anchor)
  | branch (alternatives : List (List Node))
  | group (index : Option Nat) (on off : Flags) (body : List Node)
  | atomic (body : List Node)
  | repetition (mode : Mode) (least : Nat) (most : Option Nat) (body : List Node)
  /-- `behind` holds the least and the greatest width of what is looked for before the place. -/
  | look (behind : Option (Nat × Nat)) (positive : Bool) (body : List Node)
  | backref (index : Nat)
  | conditional (index : Nat) (yes : List Node) (no : Option (List Node))
  deriving Repr

namespace Flags

def none : Flags := { }

def isNone (f : Flags) : Bool := f == .none
instance : BEq Flags := ⟨fun a b => decide (a = b)⟩

/-- All that either switches on. -/
def join (a b : Flags) : Flags :=
  ⟨a.ignoreCase || b.ignoreCase, a.lines || b.lines, a.dotAll || b.dotAll, a.spaced || b.spaced,
    a.ascii || b.ascii, a.unicode || b.unicode, a.template || b.template⟩

def without (a b : Flags) : Flags :=
  ⟨a.ignoreCase && !b.ignoreCase, a.lines && !b.lines, a.dotAll && !b.dotAll,
    a.spaced && !b.spaced, a.ascii && !b.ascii, a.unicode && !b.unicode, a.template && !b.template⟩

def meets (a b : Flags) : Bool := !((a.without (a.without b)) == .none)

/-- The flags inside a group: naming a character kind takes the place of the kind in force. -/
def inner (f on off : Flags) : Flags :=
  let f := if on.ascii || on.unicode then { f with ascii := false, unicode := false } else f
  (f.join on).without off

end Flags

/-- Least and greatest number of characters that a node can read, counted up to a limit. -/
abbrev Width := Nat × Nat

def widthLimit : Nat := Nat.pow 2 64
def repeatLimit : Nat := 4294967295

def Width.add (a b : Width) : Width := (a.1 + b.1, a.2 + b.2)
def Width.clamp (a : Width) : Width := (min a.1 widthLimit, min a.2 widthLimit)

mutual

/-- `groups` gives the widths of the groups that a node may refer to. -/
def Node.width (groups : List (Nat × Width)) : Node → Width
  | .code _ => (1, 1)
  | .any => (1, 1)
  | .set _ _ => (1, 1)
  | .anchor _ => (0, 0)
  | .branch alternatives => alternativesWidth groups alternatives
  | .group _ _ _ body => sequenceWidth groups body
  | .atomic body => sequenceWidth groups body
  | .repetition _ least most body =>
    let w := sequenceWidth groups body
    (w.1 * least, match most with
      | some n => w.2 * n
      | none => if w.2 = 0 then 0 else widthLimit)
  | .look _ _ _ => (0, 0)
  | .backref index => (groups.lookup index).getD (0, 0)
  | .conditional _ yes no =>
    let y := sequenceWidth groups yes
    match no with
    | some no =>
      let n := sequenceWidth groups no
      (min y.1 n.1, max y.2 n.2)
    | none => (0, y.2)

def sequenceTotal (groups : List (Nat × Width)) : List Node → Width
  | [] => (0, 0)
  | n :: ns => (n.width groups).add (sequenceTotal groups ns)

def sequenceWidth (groups : List (Nat × Width)) (ns : List Node) : Width :=
  (sequenceTotal groups ns).clamp

def alternativesWidth (groups : List (Nat × Width)) : List (List Node) → Width
  | [] => (widthLimit, 0)
  | a :: as =>
    let w := sequenceWidth groups a
    let ws := alternativesWidth groups as
    (min w.1 ws.1, max w.2 ws.2)

end

end Lockstep.Pattern
