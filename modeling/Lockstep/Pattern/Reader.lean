import Lockstep.Pattern.Basic
import Lockstep.Pattern.Fault
import Lockstep.Number.Literal
/-!
Reading patterns. The text is taken token by token, a token being a character or a backslash with
the character after it. The first fault met from left to right is the answer; widths of
look-behinds are looked at when all has been read.
-/

set_option autoImplicit false

namespace Lockstep.Pattern

inductive Token where
  | plain (c : Char)
  | escaped (c : Char)
  deriving DecidableEq, Repr

def Token.written : Token → Text
  | .plain c => [c]
  | .escaped c => ['\\', c]

/-- The reader's memory: where it stands, the flags of the whole pattern, the groups opened and
closed so far, and the group numbers that conditions have asked for. -/
structure Scan where
  offset : Nat
  rest : Text
  flags : Flags := Flags.none
  names : List (Text × Nat) := []
  count : Nat := 1
  closed : List (Nat × Width) := []
  lookBehind : Option Nat := none
  asked : List (Nat × Nat) := []

abbrev Reading := StateT Scan (Except Fault)

def failAt {α : Type} (cause : Cause) (offset : Nat) : Reading α := throw (.at cause offset)

/-- A fault that many characters before the place reached. -/
def fail {α : Type} (cause : Cause) (before : Nat) : Reading α := do
  let s ← get
  failAt cause (s.offset - before)

def tell : Reading Nat := do return (← get).offset

def tokenOf : Text → Option Token
  | '\\' :: c :: _ => some (.escaped c)
  | c :: _ => some (.plain c)
  | [] => none

def peek : Reading (Option Token) := do return tokenOf (← get).rest

/-- Stands at the rest of the text; a backslash that ends the pattern is refused as soon as it is
the next token. -/
def moveTo (offset : Nat) (rest : Text) : Reading Unit := do
  if rest = ['\\'] then failAt .trailingBackslash offset
  else modify fun s => { s with offset, rest }

def next : Reading (Option Token) := do
  let s ← get
  match tokenOf s.rest with
  | none => return none
  | some t =>
    moveTo (s.offset + t.written.length) (s.rest.drop t.written.length)
    return some t

def accept (c : Char) : Reading Bool := do
  if (← peek) = some (.plain c) then
    let _ ← next
    return true
  else return false

/-- Up to `most` tokens that are characters of a class. -/
def takeClass (cls : Char → Bool) : Nat → Reading Text
  | 0 => return []
  | most + 1 => do
    match ← peek with
    | some (.plain c) =>
      if cls c then
        let _ ← next
        return c :: (← takeClass cls most)
      else return []
    | _ => return []

def takeDigits : Reading Text := do takeClass Char.isDigit (← get).rest.length

/-- A name up to its closing character. -/
def takeName (closing : Char) (what : Text) : Nat → Text → Reading Text
  | 0, name => return name
  | fuel + 1, name => do
    match ← next with
    | none =>
      if name.isEmpty then fail (.missingName what) 0
      else fail (.unterminatedName closing) name.length
    | some t =>
      if t = .plain closing then
        if name.isEmpty then fail (.missingName what) 1 else return name
      else takeName closing what fuel (name ++ t.written)

def isNameStart (c : Char) : Bool :=
  c == '_' || (Text.isWord c && (Text.digitValue? c).isNone)

def isName : Text → Bool
  | [] => false
  | c :: cs => isNameStart c && cs.all Text.isWord

def isHex (c : Char) : Bool := (Text.hexValue? c).isSome
def isOctal (c : Char) : Bool := decide ('0' ≤ c) && decide (c ≤ '7')
def isLetter (c : Char) : Bool := c != '_' && isNameStart c

def valueIn (base : Nat) (digits : Text) : Nat :=
  digits.foldl (fun n c => n * base + (Text.hexValue? c).getD 0) 0

/-- The characters that a backslash and a letter stand for. -/
def controlEscape? : Char → Option Nat
  | 'a' => some 7
  | 'f' => some 12
  | 'n' => some 10
  | 'r' => some 13
  | 't' => some 9
  | 'v' => some 11
  | '\\' => some 92
  | _ => none

def categoryEscape? : Char → Option Member
  | 'd' => some (.category .digit true)
  | 'D' => some (.category .digit false)
  | 's' => some (.category .space true)
  | 'S' => some (.category .space false)
  | 'w' => some (.category .word true)
  | 'W' => some (.category .word false)
  | _ => none

def anchorEscape? : Char → Option Anchor
  | 'A' => some .textStart
  | 'Z' => some .textFinish
  | 'b' => some .boundary
  | 'B' => some .noBoundary
  | _ => none

/-- An escape with a fixed count of hexadecimal digits. -/
def hexEscape (c : Char) (count : Nat) : Reading Nat := do
  let digits ← takeClass isHex count
  let written := '\\' :: c :: digits
  if digits.length ≠ count then fail (.shortEscape written) written.length
  else
    let n := valueIn 16 digits
    if 0x10FFFF < n then fail (.badEscape written) written.length else return n

/-- An escape that names its character. No names are known. -/
def namedEscape : Reading Nat := do
  if !(← accept '\x7b') then fail .missingBrace 0
  else
    let name ← takeName '\x7d' "character name".toList (← get).rest.length.succ []
    fail (.unknownCharacter name) (name.length + 4)

/-- The escapes that mean the same inside and outside of a set. -/
def commonEscape? (c : Char) : Reading (Option Nat) := do
  if c = 'x' then return some (← hexEscape c 2)
  else if c = 'u' then return some (← hexEscape c 4)
  else if c = 'U' then return some (← hexEscape c 8)
  else if c = 'N' then return some (← namedEscape)
  else return none

def plainEscape (c : Char) : Reading Nat := do
  if c.isAlphanum then fail (.badEscape ['\\', c]) 2 else return c.toNat

def octalValue (digits : Text) : Reading Nat := do
  let n := valueIn 8 digits
  if 0o377 < n then fail (.octal ('\\' :: digits)) (digits.length + 1) else return n

def setEscape (c : Char) : Reading Member := do
  if c = 'b' then return .code 8
  else if let some n := controlEscape? c then return .code n
  else if let some m := categoryEscape? c then return m
  else if let some n ← commonEscape? c then return .code n
  else if isOctal c then return .code (← octalValue (c :: (← takeClass isOctal 2)))
  else return .code (← plainEscape c)

/-- A group may be referred to when it is closed, and from a look-behind only when it was opened
before it. -/
def checkLookBehind (index : Nat) : Reading Unit := do
  let s ← get
  match s.lookBehind with
  | none => return ()
  | some opened =>
    if (s.closed.lookup index).isNone then fail .openReference 0
    else if opened ≤ index then fail .innerReference 0
    else return ()

def reference (digits : Text) : Reading Node := do
  let index := valueIn 10 digits
  let s ← get
  if index < s.count then
    if (s.closed.lookup index).isNone then fail .openReference (digits.length + 1)
    else
      checkLookBehind index
      return .backref index
  else fail (.badReference index) digits.length

/-- Three octal digits name a character, other digits a group. -/
def numberEscape (c : Char) : Reading Node := do
  if c = '0' then return .code (valueIn 8 (c :: (← takeClass isOctal 2)))
  else
    let second ← takeClass Char.isDigit 1
    if isOctal c && second.all isOctal && !second.isEmpty then
      let third ← takeClass isOctal 1
      if third.isEmpty then reference (c :: second)
      else return .code (← octalValue (c :: second ++ third))
    else reference (c :: second)

def escape (c : Char) : Reading Node := do
  if let some a := anchorEscape? c then return .anchor a
  else if let some m := categoryEscape? c then return .set false [m]
  else if let some n := controlEscape? c then return .code n
  else if let some n ← commonEscape? c then return .code n
  else if c.isDigit then numberEscape c
  else return .code (← plainEscape c)

def member : Token → Reading Member
  | .plain c => return .code c.toNat
  | .escaped c => setEscape c

/-- The members of a set up to its closing bracket, which does not close an empty set. -/
def setMembers (start : Nat) : Nat → List Member → Reading (List Member)
  | 0, done => return done
  | fuel + 1, done => do
    match ← next with
    | none => failAt .openSet start
    | some this =>
      if this = .plain ']' ∧ done ≠ [] then return done
      else
        let first ← member this
        if ← accept '-' then
          match ← next with
          | none => failAt .openSet start
          | some that =>
            if that = .plain ']' then return done ++ [first, .code '-'.toNat]
            else
              let last ← member that
              let size := this.written.length + 1 + that.written.length
              match first, last with
              | .code lo, .code hi =>
                if hi < lo then fail (.badRange this.written that.written) size
                else setMembers start fuel (done ++ [.range lo hi])
              | _, _ => fail (.badRange this.written that.written) size
        else setMembers start fuel (done ++ [first])

def charSet : Reading Node := do
  let start := (← tell) - 1
  let negated ← accept '^'
  return .set negated (← setMembers start (← get).rest.length.succ [])

def bound (digits : Text) : Reading (Option Nat) := do
  if digits.isEmpty then return none
  else
    let n := valueIn 10 digits
    if repeatLimit ≤ n then throw .countTooLarge else return some n

/-- The bounds after an opening brace, or nothing if the brace stands for itself. -/
def bounds? : Reading (Option (Nat × Option Nat)) := do
  let start ← get
  if (← peek) = some (.plain '\x7d') then return none
  else
    let lo ← takeDigits
    let hi ← if ← accept ',' then some <$> takeDigits else pure none
    if ← accept '\x7d' then
      let least ← bound lo
      let most ← bound (hi.getD lo)
      match least, most with
      | some l, some m =>
        if m < l then failAt .leastAboveMost start.offset else return some (l, some m)
      | l, m => return some (l.getD 0, m)
    else
      moveTo start.offset start.rest
      return none

/-- Wraps the node read last into a repetition, whose sign stands at `start`. -/
def repeatLast (start least : Nat) (most : Option Nat) (done : List Node) :
    Reading (List Node) := do
  match done with
  | [] => failAt .nothingToRepeat start
  | .anchor _ :: _ => failAt .nothingToRepeat start
  | .repetition _ _ _ _ :: _ => failAt .multipleRepeat start
  | n :: done =>
    if ← accept '?' then return .repetition .lazy least most [n] :: done
    else
      let possessive ← accept '+'
      return .repetition (if possessive then .possessive else .greedy) least most [n] :: done

def flag? : Char → Option Flags
  | 'i' => some { ignoreCase := true }
  | 'm' => some { lines := true }
  | 's' => some { dotAll := true }
  | 'x' => some { spaced := true }
  | 'a' => some { ascii := true }
  | 'u' => some { unicode := true }
  | 't' => some { template := true }
  | _ => none

/-- A flag letter or else the fault of finding something that is none. -/
def flagOf (t : Option Token) (ended otherwise : FlagCause) : Reading Flags := do
  match t with
  | none => fail (.flag ended) 0
  | some t =>
    match t with
    | .plain 'L' =>
      if otherwise = .missingColon ∨ otherwise = .missing then fail (.flag .kindOff) 0
      else fail (.flag .localeKind) 0
    | .plain c =>
      match flag? c with
      | some f => return f
      | none => fail (.flag (if isLetter c then .unknown else otherwise)) 1
    | .escaped _ => fail (.flag otherwise) 2

/-- Flags switched on, up to the character that ends them. -/
def flagsOn : Nat → Flags → Option Token → Reading (Flags × Char)
  | 0, on, _ => return (on, ')')
  | fuel + 1, on, t => do
    let f ← flagOf t .needsEnd .needsEnd
    let on := on.join f
    if on.ascii && on.unicode && (f.ascii || f.unicode) then fail (.flag .mixedKinds) 0
    else
      let t ← next
      match t with
      | some (.plain ')') => return (on, ')')
      | some (.plain '-') => return (on, '-')
      | some (.plain ':') => return (on, ':')
      | t => flagsOn fuel on t

/-- Flags switched off, up to the colon. -/
def flagsOff (ended otherwise : FlagCause) : Nat → Flags → Option Token → Reading Flags
  | 0, off, _ => return off
  | fuel + 1, off, t => do
    let f ← flagOf t ended otherwise
    if f.ascii || f.unicode then fail (.flag .kindOff) 0
    else
      let off := off.join f
      let t ← next
      if t = some (.plain ':') then return off
      else flagsOff .missingColon .missingColon fuel off t

/-- The flags of a group, or nothing when they are those of the whole pattern. -/
def groupFlags (first : Token) : Reading (Option (Flags × Flags)) := do
  let fuel := (← get).rest.length + 2
  let (on, closing) ←
    if first = .plain '-' then pure (Flags.none, '-') else flagsOn fuel Flags.none (some first)
  if closing = ')' then
    modify fun s => { s with flags := s.flags.join on }
    return none
  else if on.template then fail (.flag .globalOn) 1
  else
    let off ←
      if closing = '-' then flagsOff .missing .missing fuel Flags.none (← next)
      else pure Flags.none
    if off.template then fail (.flag .globalOff) 1
    else if on.meets off then fail (.flag .onAndOff) 1
    else return some (on, off)

def openGroup (name : Option Text) : Reading Nat := do
  let s ← get
  match name with
  | none =>
    set { s with count := s.count + 1 }
    return s.count
  | some name =>
    match s.names.lookup name with
    | some earlier => fail (.redefined name s.count earlier) (name.length + 1)
    | none =>
      set { s with count := s.count + 1, names := (name, s.count) :: s.names }
      return s.count

def closeGroup (index : Nat) (body : List Node) : Reading Unit :=
  modify fun s => { s with closed := (index, sequenceWidth s.closed body) :: s.closed }

/-- The group that a condition asks for, by name or by number. -/
def conditionGroup (name : Text) : Reading Nat := do
  let s ← get
  if isName name then
    match s.names.lookup name with
    | some index => return index
    | none => fail (.unknownName name) (name.length + 1)
  else match Literal.int? name with
    | some (.ofNat 0) => fail .groupZero (name.length + 1)
    | some (.ofNat index) =>
      if 1073741823 ≤ index then fail (.badReference index) (name.length + 1)
      else
        if (s.asked.lookup index).isNone then
          set { s with asked := s.asked ++ [(index, s.offset - name.length - 1)] }
        return index
    | _ => fail (.badName name) (name.length + 1)

def namedReference (name : Text) : Reading Node := do
  let s ← get
  match s.names.lookup name with
  | none => fail (.unknownName name) (name.length + 1)
  | some index =>
    if (s.closed.lookup index).isNone then fail .openReference (name.length + 1)
    else
      checkLookBehind index
      return .backref index

def groupName (closing : Char) : Reading Text := do
  let name ← takeName closing "group name".toList (← get).rest.length.succ []
  if isName name then return name else fail (.badName name) (name.length + 1)

def skipComment (start : Nat) : Nat → Reading Unit
  | 0 => return ()
  | fuel + 1 => do
    match ← next with
    | none => failAt .openComment start
    | some t => if t = .plain ')' then return () else skipComment start fuel

/-- In a spaced pattern a number sign starts a comment that ends with the line. -/
def skipLine : Nat → Reading Unit
  | 0 => return ()
  | fuel + 1 => do
    match ← next with
    | none => return ()
    | some t => if t = .plain '\n' then return () else skipLine fuel

def isPatternSpace (c : Char) : Bool :=
  c == ' ' || c == '\t' || c == '\n' || c == '\r' || c == '\x0b' || c == '\x0c'

/-- What stands between an opening parenthesis and the body of a group. -/
inductive Opening where
  | capture (name : Option Text)
  | atomic
  | flags (on off : Flags)
  | look (behind positive : Bool)
  | condition (index : Nat)
  | node (n : Node)
  | nothing
  | whole

def opening (start : Nat) : Reading Opening := do
  if !(← accept '?') then return .capture none
  else match ← next with
    | none => fail .endOfPattern 0
    | some t =>
      if t = .plain 'P' then
        if ← accept '<' then return .capture (some (← groupName '>'))
        else if ← accept '=' then return .node (← namedReference (← groupName ')'))
        else match ← next with
          | none => fail .endOfPattern 0
          | some t => fail (.unknownExtension ('P' :: t.written)) (t.written.length + 2)
      else if t = .plain ':' then return .flags Flags.none Flags.none
      else if t = .plain '#' then
        skipComment start (← get).rest.length.succ
        return .nothing
      else if t = .plain '=' then return .look false true
      else if t = .plain '!' then return .look false false
      else if t = .plain '<' then
        match ← next with
        | none => fail .endOfPattern 0
        | some t =>
          if t = .plain '=' then return .look true true
          else if t = .plain '!' then return .look true false
          else fail (.unknownExtension ('<' :: t.written)) (t.written.length + 2)
      else if t = .plain '(' then
        let name ← takeName ')' "group name".toList (← get).rest.length.succ []
        let index ← conditionGroup name
        checkLookBehind index
        return .condition index
      else if t = .plain '>' then return .atomic
      else
        let isFlag := match t with
          | .plain c => c == '-' || c == 'L' || (flag? c).isSome
          | .escaped _ => false
        if isFlag then
          match ← groupFlags t with
          | none => return .whole
          | some (on, off) => return .flags on off
        else fail (.unknownExtension t.written) (t.written.length + 1)

def closeParen (start : Nat) : Reading Unit := do
  if ← accept ')' then return () else failAt .openGroupText start

mutual

/-- Alternatives up to a closing parenthesis or the end. `outer` tells that this is the whole
pattern, where flags may stand first. A bound on the length of the text is never met. -/
def alternatives : Nat → Bool → Bool → Reading (List Node)
  | 0, _, _ => return []
  | fuel + 1, spaced, outer => do
    let first ← sequence fuel spaced outer []
    let more ← moreAlternatives fuel spaced outer
    if more.isEmpty then return first else return [.branch (first :: more)]

def moreAlternatives : Nat → Bool → Bool → Reading (List (List Node))
  | 0, _, _ => return []
  | fuel + 1, spaced, outer => do
    if ← accept '|' then
      let s ← get
      let spaced := if outer then s.flags.spaced else spaced
      let a ← sequence fuel spaced false []
      return a :: (← moreAlternatives fuel spaced outer)
    else return []

/-- The nodes up to a bar, a closing parenthesis or the end; `done` holds those read, last one
first. -/
def sequence : Nat → Bool → Bool → List Node → Reading (List Node)
  | 0, _, _, done => return done.reverse
  | fuel + 1, spaced, first, done => do
    match ← peek with
    | none => return done.reverse
    | some (.plain '|') => return done.reverse
    | some (.plain ')') => return done.reverse
    | some t =>
      let start ← tell
      let _ ← next
      match t with
      | .escaped c => sequence fuel spaced first ((← escape c) :: done)
      | .plain c =>
        if spaced && isPatternSpace c then sequence fuel spaced first done
        else if spaced && c == '#' then
          skipLine (← get).rest.length.succ
          sequence fuel spaced first done
        else if c = '[' then sequence fuel spaced first ((← charSet) :: done)
        else if c = '*' then sequence fuel spaced first (← repeatLast start 0 none done)
        else if c = '+' then sequence fuel spaced first (← repeatLast start 1 none done)
        else if c = '?' then sequence fuel spaced first (← repeatLast start 0 (some 1) done)
        else if c = '\x7b' then
          match ← bounds? with
          | none => sequence fuel spaced first (.code c.toNat :: done)
          | some (least, most) =>
            sequence fuel spaced first (← repeatLast start least most done)
        else if c = '.' then sequence fuel spaced first (.any :: done)
        else if c = '^' then sequence fuel spaced first (.anchor .start :: done)
        else if c = '$' then sequence fuel spaced first (.anchor .finish :: done)
        else if c = '(' then
          match ← opening start with
          | .nothing => sequence fuel spaced first done
          | .node n => sequence fuel spaced first (n :: done)
          | .whole =>
            if first && done.isEmpty then
              let s ← get
              sequence fuel s.flags.spaced first done
            else failAt .lateFlags start
          | o => sequence fuel spaced first ((← groupBody fuel spaced start o) :: done)
        else sequence fuel spaced first (.code c.toNat :: done)

def groupBody : Nat → Bool → Nat → Opening → Reading Node
  | 0, _, _, _ => return .any
  | fuel + 1, spaced, start, o => do
    match o with
    | .look behind positive =>
      let outer := (← get).lookBehind
      if behind && outer.isNone then modify fun s => { s with lookBehind := some s.count }
      let body ← alternatives fuel spaced false
      if behind then modify fun s => { s with lookBehind := outer }
      closeParen start
      let width := sequenceWidth (← get).closed body
      return .look (if behind then some width else none) positive body
    | .condition index =>
      let yes ← sequence fuel spaced false []
      let no ← if ← accept '|' then some <$> sequence fuel spaced false [] else pure none
      if no.isSome && (← peek) = some (.plain '|') then fail .thirdBranch 0
      else
        closeParen start
        return .conditional index yes no
    | .atomic =>
      let body ← alternatives fuel spaced false
      closeParen start
      return .atomic body
    | .flags on off =>
      let body ← alternatives fuel ((spaced || on.spaced) && !off.spaced) false
      closeParen start
      return .group none on off body
    | .capture name =>
      let index ← openGroup name
      let body ← alternatives fuel spaced false
      closeParen start
      closeGroup index body
      return .group (some index) Flags.none Flags.none body
    | .node n => return n
    | .nothing => return .any
    | .whole => return .any

end

mutual

/-- The first fault that shows when a pattern has been read: a look-behind must have one width,
and in a template nothing may repeat. -/
def Node.fault? (template : Bool) : Node → Option Fault
  | .code _ => none
  | .any => none
  | .set _ _ => none
  | .anchor _ => none
  | .backref _ => none
  | .branch alternatives => alternativesFault? template alternatives
  | .group _ _ _ body => sequenceFault? template body
  | .atomic body => sequenceFault? template body
  | .repetition mode _ _ body =>
    if template then
      some (.whole (.templateRepeat (match mode with
        | .greedy => "MAX_REPEAT".toList
        | .lazy => "MIN_REPEAT".toList
        | .possessive => "POSSESSIVE_REPEAT".toList)))
    else sequenceFault? template body
  | .look none _ body => sequenceFault? template body
  | .look (some width) _ body =>
    if repeatLimit < width.1 then some (.whole .longLookBehind)
    else if width.1 ≠ width.2 then some (.whole .unfixedLookBehind)
    else sequenceFault? template body
  | .conditional _ yes no =>
    match sequenceFault? template yes with
    | some f => some f
    | none => match no with
      | some no => sequenceFault? template no
      | none => none

def sequenceFault? (template : Bool) : List Node → Option Fault
  | [] => none
  | n :: ns => match n.fault? template with
    | some f => some f
    | none => sequenceFault? template ns

def alternativesFault? (template : Bool) : List (List Node) → Option Fault
  | [] => none
  | a :: as => match sequenceFault? template a with
    | some f => some f
    | none => alternativesFault? template as

end

end Pattern

/-- A pattern with its text: the flags of the whole and the nodes. -/
structure Pattern where
  source : Text
  flags : Pattern.Flags
  nodes : List Pattern.Node
  deriving Repr

namespace Pattern

def whole : Reading (List Node) := do
  let s ← get
  moveTo s.offset s.rest
  let nodes ← alternatives (4 * s.rest.length + 8) false true
  let s ← get
  if s.flags.ascii && s.flags.unicode then throw .mixedKinds
  else if !s.rest.isEmpty then failAt .unbalanced s.offset
  else match s.asked.find? fun a => decide (s.count ≤ a.1) with
    | some a => failAt (.badReference a.1) a.2
    | none => match sequenceFault? s.flags.template nodes with
      | some f => throw f
      | none => return nodes

def read (source : Text) : Except Fault Pattern :=
  match whole.run { offset := 0, rest := source } with
  | .error f => .error f
  | .ok (nodes, s) => .ok ⟨source, s.flags, nodes⟩

end Pattern
end Lockstep
