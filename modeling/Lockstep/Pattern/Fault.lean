import Lockstep.Text.Place
import Lockstep.Text.Quoted
/-!
What can be wrong with the text of a pattern. Most faults have a place; a look-behind of no fixed
width is a fault of the pattern as a whole.
-/

set_option autoImplicit false

namespace Lockstep.Pattern

inductive FlagCause where
  | needsEnd | unknown | missing | missingColon
  | localeKind | mixedKinds | kindOff | globalOn | globalOff | onAndOff
  deriving DecidableEq, Repr

inductive Cause where
  | openGroupText | unbalanced | openSet | openComment | endOfPattern
  | nothingToRepeat | multipleRepeat | leastAboveMost
  | missingName (what : Text) | unterminatedName (closing : Char)
  | badName (name : Text) | unknownName (name : Text)
  | redefined (name : Text) (index earlier : Nat)
  | unknownExtension (mark : Text)
  | trailingBackslash
  | badEscape (written : Text) | shortEscape (written : Text) | octal (written : Text)
  | missingBrace | unknownCharacter (name : Text)
  | badRange (first last : Text)
  | badReference (index : Nat) | openReference | innerReference
  | groupZero | thirdBranch
  | lateFlags | flag (cause : FlagCause)
  | unfixedLookBehind | longLookBehind
  | templateRepeat (operator : Text)
  deriving DecidableEq, Repr

/-- A pattern is refused with a cause and mostly a place. Two faults are of another kind: a count
beyond what can be repeated, and both character kinds at once. -/
inductive Fault where
  | at (cause : Cause) (offset : Nat)
  | whole (cause : Cause)
  | countTooLarge
  | mixedKinds
  deriving DecidableEq, Repr

def FlagCause.message : FlagCause → Text
  | .needsEnd => "missing -, : or )".toList
  | .unknown => "unknown flag".toList
  | .missing => "missing flag".toList
  | .missingColon => "missing :".toList
  | .localeKind => "bad inline flags: cannot use 'L' flag with a str pattern".toList
  | .mixedKinds => "bad inline flags: flags 'a', 'u' and 'L' are incompatible".toList
  | .kindOff => "bad inline flags: cannot turn off flags 'a', 'u' and 'L'".toList
  | .globalOn => "bad inline flags: cannot turn on global flag".toList
  | .globalOff => "bad inline flags: cannot turn off global flag".toList
  | .onAndOff => "bad inline flags: flag turned on and off".toList

def Cause.message : Cause → Text
  | .openGroupText => "missing ), unterminated subpattern".toList
  | .unbalanced => "unbalanced parenthesis".toList
  | .openSet => "unterminated character set".toList
  | .openComment => "missing ), unterminated comment".toList
  | .endOfPattern => "unexpected end of pattern".toList
  | .nothingToRepeat => "nothing to repeat".toList
  | .multipleRepeat => "multiple repeat".toList
  | .leastAboveMost => "min repeat greater than max repeat".toList
  | .missingName what => "missing ".toList ++ what
  | .unterminatedName closing => "missing ".toList ++ closing :: ", unterminated name".toList
  | .badName name => "bad character in group name ".toList ++ Text.quoted name
  | .unknownName name => "unknown group name ".toList ++ Text.quoted name
  | .redefined name index earlier =>
    "redefinition of group name ".toList ++ Text.quoted name ++ " as group ".toList ++
    Text.ofNat index ++ "; was group ".toList ++ Text.ofNat earlier
  | .unknownExtension mark => "unknown extension ?".toList ++ mark
  | .trailingBackslash => "bad escape (end of pattern)".toList
  | .badEscape written => "bad escape ".toList ++ written
  | .shortEscape written => "incomplete escape ".toList ++ written
  | .octal written =>
    "octal escape value ".toList ++ written ++ " outside of range 0-0o377".toList
  | .missingBrace => "missing \x7b".toList
  | .unknownCharacter name => "undefined character name ".toList ++ Text.quoted name
  | .badRange first last => "bad character range ".toList ++ first ++ '-' :: last
  | .badReference index => "invalid group reference ".toList ++ Text.ofNat index
  | .openReference => "cannot refer to an open group".toList
  | .innerReference => "cannot refer to group defined in the same lookbehind subpattern".toList
  | .groupZero => "bad group number".toList
  | .thirdBranch => "conditional backref with more than two branches".toList
  | .lateFlags => "global flags not at the start of the expression".toList
  | .flag cause => cause.message
  | .unfixedLookBehind => "look-behind requires fixed-width pattern".toList
  | .longLookBehind => "looks too much behind".toList
  | .templateRepeat operator =>
    "internal: unsupported template operator ".toList ++ operator

def mixedKindsText : Text := "ASCII and UNICODE flags are incompatible".toList

/-- A place is given by its offset, and in a pattern of several lines by line and column too. -/
def placeText (source : Text) (offset : Nat) : Text :=
  " at position ".toList ++ Text.ofNat offset ++
  (if source.contains '\n' then
    " (line ".toList ++ Text.ofNat (Text.lineAt source offset) ++ ", column ".toList ++
    Text.ofNat (Text.columnAt source offset) ++ [')']
  else [])

def Fault.message? (source : Text) : Fault → Option Text
  | .at cause offset => some (cause.message ++ placeText source offset)
  | .whole cause => some cause.message
  | .countTooLarge => none
  | .mixedKinds => none

end Lockstep.Pattern
