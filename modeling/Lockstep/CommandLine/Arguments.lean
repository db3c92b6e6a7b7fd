import Lockstep.Text.Digit
import Lockstep.Text.Quoted
/-!
Reading the words of a command line. A switch goes by a short or a long name, of which a beginning is
enough if it fits one name alone; its value is the next word, or follows after `=` or directly after
a short name. Short switches without values may share a word. After `--` no word is a switch.
-/

set_option autoImplicit false

namespace Lockstep.CommandLine

structure Switch (κ : Type) where
  key : κ
  names : List Text
  takesValue : Bool := false

/-- What a program takes: switches, and either one word or a command with all that follows it. -/
structure Shape (κ : Type) where
  program : Text
  switches : List (Switch κ)
  operand : Text
  isCommand : Bool := false

/-- Why words cannot be read. Switches go by all of their names. -/
inductive Problem where
  | ambiguous (written : Text) (names : List Text)
  | wantsValue (switch : Text)
  | ignoredValue (switch value : Text)
  | invalidChoice (name value : Text) (choices : List Text)
  | invalidWhole (name value : Text)
  | missing (names : List Text)
  | unrecognized (words : List Text)
  deriving DecidableEq, Repr

def Problem.message : Problem → Text
  | .ambiguous written names =>
    "ambiguous option: ".toList ++ written ++ " could match ".toList ++ Text.join ", ".toList names
  | .wantsValue switch => "argument ".toList ++ switch ++ ": expected one argument".toList
  | .ignoredValue switch value =>
    "argument ".toList ++ switch ++ ": ignored explicit argument ".toList ++ Text.quoted value
  | .invalidChoice name value choices =>
    "argument ".toList ++ name ++ ": invalid choice: ".toList ++ Text.quoted value ++
    " (choose from ".toList ++ Text.join ", ".toList (choices.map Text.quoted) ++ [')']
  | .invalidWhole name value =>
    "argument ".toList ++ name ++ ": invalid int value: ".toList ++ Text.quoted value
  | .missing names =>
    "the following arguments are required: ".toList ++ Text.join ", ".toList names
  | .unrecognized words => "unrecognized arguments: ".toList ++ Text.join [' '] words

variable {κ : Type}

def Switch.shown (s : Switch κ) : Text := Text.join ['/'] s.names

namespace Shape

/-- Every name with its switch. -/
def named (p : Shape κ) : List (Text × Switch κ) :=
  p.switches.flatMap fun s => s.names.map fun n => (n, s)

def find? (p : Shape κ) (name : Text) : Option (Switch κ) := p.named.lookup name

end Shape

/-- A switch as it was written. `byEquals` tells a value after `=` from one directly after the
name. -/
structure Hit (κ : Type) where
  switch : Switch κ
  name : Text
  value : Option Text := none
  byEquals : Bool := false

inductive Mark (κ : Type) where
  | word
  | dashes
  | hit (h : Hit κ)
  | unknown

def Mark.isSwitch : Mark κ → Bool
  | .hit _ => true
  | .unknown => true
  | _ => false

/-- The text before the first `=`, and after it if there is one. -/
def splitValue (t : Text) : Text × Option Text :=
  match t.dropWhile (· != '=') with
  | [] => (t, none)
  | _ :: value => (t.takeWhile (· != '='), some value)

def startsWith (t lead : Text) : Bool := (Text.dropLead? lead t).isSome

def candidates (p : Shape κ) (t : Text) : List (Hit κ) :=
  if startsWith t ['-', '-'] then
    let (name, value) := splitValue t
    p.named.filterMap fun (n, s) =>
      if startsWith n name then some ⟨s, n, value, value.isSome⟩ else none
  else
    p.named.filterMap fun (n, s) =>
      if n == t.take 2 then some ⟨s, n, some (t.drop 2), false⟩
      else if startsWith n t then some ⟨s, n, none, false⟩
      else none

def isDigit (c : Char) : Bool := (Text.digitValue? c).isSome

/-- A minus sign and a number with an optional point. -/
def isNegativeNumber : Text → Bool
  | '-' :: cs =>
    let cs := if cs.getLast? = some '\n' then cs.dropLast else cs
    match cs.dropWhile isDigit with
    | [] => !cs.isEmpty
    | '.' :: rest => !rest.isEmpty && rest.all isDigit
    | _ => false
  | _ => false

/-- What a word is, before any `--`. -/
def markOf (p : Shape κ) (t : Text) : Except Problem (Mark κ) :=
  if t.head? ≠ some '-' then .ok .word
  else match p.find? t with
    | some s => .ok (.hit ⟨s, t, none, false⟩)
    | none =>
      if t.length = 1 then .ok .word
      else
        let (name, value) := splitValue t
        match value, p.find? name with
        | some v, some s => .ok (.hit ⟨s, name, some v, true⟩)
        | _, _ => match candidates p t with
          | [h] => .ok (.hit h)
          | [] => .ok (if isNegativeNumber t || t.contains ' ' then .word else .unknown)
          | hs => .error (.ambiguous t (hs.map (·.name)))

def marks (p : Shape κ) : List Text → Except Problem (List (Text × Mark κ))
  | [] => .ok []
  | t :: ts =>
    if t = ['-', '-'] then .ok ((t, .dashes) :: ts.map fun w => (w, .word))
    else match markOf p t with
      | .error e => .error e
      | .ok m => match marks p ts with
        | .error e => .error e
        | .ok rest => .ok ((t, m) :: rest)

/-- What the words say, one after the other. -/
inductive Event (κ : Type) where
  | switch (s : Switch κ) (value : Option Text)
  | operand (words : List Text)

/-- What was read up to the end or the first problem, and the words that have no use. -/
structure Reading (κ : Type) where
  events : List (Event κ) := []
  extras : List Text := []
  problem : Option Problem := none

def Reading.append (a b : Reading κ) : Reading κ :=
  ⟨a.events ++ b.events, a.extras ++ b.extras, b.problem⟩

abbrev Marked (κ : Type) := List (Text × Mark κ)

/-- The switches of one word: any without a value may be followed by another in the same word. -/
def readHit (p : Shape κ) : Nat → List (Event κ) → Hit κ → Marked κ →
    Except Problem (List (Event κ) × List Text × Marked κ)
  | 0, done, _, rest => .ok (done, [], rest)
  | fuel + 1, done, h, rest =>
    match h.switch.takesValue, h.value with
    | true, some v => .ok (done ++ [.switch h.switch (some v)], [], rest)
    | true, none => match rest with
      | (v, .word) :: rest => .ok (done ++ [.switch h.switch (some v)], [], rest)
      | _ => .error (.wantsValue h.switch.shown)
    | false, none => .ok (done ++ [.switch h.switch none], [], rest)
    | false, some v => match v with
      | [] => .error (.ignoredValue h.switch.shown v)
      | c :: cs =>
        if h.byEquals || c == '-' || startsWith h.name ['-', '-'] then
          .error (.ignoredValue h.switch.shown v)
        else
          let done := done ++ [.switch h.switch none]
          match p.find? ['-', c] with
          | none => .ok (done, ['-' :: v], rest)
          | some s => match cs with
            | [] => readHit p fuel done ⟨s, ['-', c], none, false⟩ rest
            | '=' :: ds => readHit p fuel done ⟨s, ['-', c], some ds, true⟩ rest
            | cs => readHit p fuel done ⟨s, ['-', c], some cs, false⟩ rest

/-- The words of an operand at the front, if it stands there. The dashes belong to it. -/
def takeOperand (p : Shape κ) (items : Marked κ) : Option (List Text × Marked κ) :=
  if p.isCommand then
    match items with
    | (_, .word) :: _ => some (items.map (·.1), [])
    | (_, .dashes) :: (_, .word) :: _ => some (items.map (·.1), [])
    | _ => none
  else match items with
    | (w, .word) :: (_, .dashes) :: rest => some ([w], rest)
    | (w, .word) :: rest => some ([w], rest)
    | (_, .dashes) :: (w, .word) :: rest => some ([w], rest)
    | _ => none

/-- Reads marked words; `free` says that the operand is still to come. -/
def gather (p : Shape κ) : Nat → Bool → Marked κ → Reading κ
  | 0, _, items => { extras := items.map (·.1) }
  | fuel + 1, free, items =>
    match items with
    | [] => { }
    | (_, .hit h) :: rest =>
      match readHit p ((h.value.getD []).length + 1) [] h rest with
      | .error e => { problem := some e }
      | .ok (events, extras, rest) =>
        Reading.append ⟨events, extras, none⟩ (gather p fuel free rest)
    | (t, .unknown) :: rest => Reading.append ⟨[], [t], none⟩ (gather p fuel free rest)
    | items =>
      match (if free then takeOperand p items else none) with
      | some (words, rest) => Reading.append ⟨[.operand words], [], none⟩ (gather p fuel false rest)
      | none =>
        let plain := items.takeWhile fun i => !i.2.isSwitch
        Reading.append ⟨[], plain.map (·.1), none⟩ (gather p fuel free (items.drop plain.length))

def readWords (p : Shape κ) (words : List Text) : Reading κ :=
  match marks p words with
  | .error e => { problem := some e }
  | .ok items => gather p (items.length + 1) true items

end Lockstep.CommandLine
