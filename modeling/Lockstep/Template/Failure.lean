import Lockstep.Json.Basic
/-!
What can go wrong with a message template: its form, the fields that it names, or how a value is to
be written.
-/

set_option autoImplicit false

namespace Lockstep.Template

/-- What is wrong with the text of a template. -/
inductive Misuse where
  | singleOpen | singleClose | openInName | closeExpected
  | conversionAtEnd | colonExpected | openSpec
  | positional | tooManyDigits | afterBracket | bracketExpected | emptyAttribute
  | unknownConversion (c : Char)
  | tooDeep
  | invalidSpec (spec kind : Text)
  | missingPrecision
  | commaAndLowLine
  | separatorWith (separator code : Char)
  | unknownCode (code : Char) (kind : Text)
  | textSpace | textSign | textNegativeZero | textAlternate | textPadding
  | wholePrecision | wholeNegativeZero | codeSign | codeAlternate
  | precisionTooBig
  deriving DecidableEq, Repr

/-- Why a value cannot be looked into or written. -/
inductive Mismatch where
  | notSubscriptable (kind : Text)
  | textIndex | listIndex
  | unsupportedSpec (kind : Text)
  | notText (kind : Text)
  deriving DecidableEq, Repr

/-- A number too large to be written as asked and a width beyond all memory are no fault of the
template, so they have no message. -/
inductive Failure where
  | misuse (m : Misuse)
  | noField (key : Json)
  | noAttribute (kind name : Text)
  | textEnd | listEnd
  | mismatch (m : Mismatch)
  | overflow
  | memory
  deriving DecidableEq, Repr

def codeShown (c : Char) : Text :=
  if 32 < c.toNat ∧ c.toNat < 128 then [c]
  else '\\' :: 'x' :: Nat.toDigits 16 c.toNat

def Misuse.message : Misuse → Text
  | .singleOpen => "Single '\x7b' encountered in format string".toList
  | .singleClose => "Single '\x7d' encountered in format string".toList
  | .openInName => "unexpected '\x7b' in field name".toList
  | .closeExpected => "expected '\x7d' before end of string".toList
  | .conversionAtEnd => "end of string while looking for conversion specifier".toList
  | .colonExpected => "expected ':' after conversion specifier".toList
  | .openSpec => "unmatched '\x7b' in format spec".toList
  | .positional => "Format string contains positional fields".toList
  | .tooManyDigits => "Too many decimal digits in format string".toList
  | .afterBracket => "Only '.' or '[' may follow ']' in format field specifier".toList
  | .bracketExpected => "Missing ']' in format string".toList
  | .emptyAttribute => "Empty attribute in format string".toList
  | .unknownConversion c =>
    "Unknown conversion specifier ".toList ++
    (if 32 < c.toNat ∧ c.toNat < 127 then [c] else '\\' :: 'x' :: Nat.toDigits 16 c.toNat)
  | .tooDeep => "Max string recursion exceeded".toList
  | .invalidSpec spec kind =>
    "Invalid format specifier '".toList ++ spec ++ "' for object of type '".toList ++ kind ++ ['\'']
  | .missingPrecision => "Format specifier missing precision".toList
  | .commaAndLowLine => "Cannot specify both ',' and '_'.".toList
  | .separatorWith separator code =>
    "Cannot specify '".toList ++ separator :: "' with '".toList ++ codeShown code ++ "'.".toList
  | .unknownCode code kind =>
    "Unknown format code '".toList ++ codeShown code ++ "' for object of type '".toList ++ kind ++
    ['\'']
  | .textSpace => "Space not allowed in string format specifier".toList
  | .textSign => "Sign not allowed in string format specifier".toList
  | .textNegativeZero =>
    "Negative zero coercion (z) not allowed in string format specifier".toList
  | .textAlternate => "Alternate form (#) not allowed in string format specifier".toList
  | .textPadding => "'=' alignment not allowed in string format specifier".toList
  | .wholePrecision => "Precision not allowed in integer format specifier".toList
  | .wholeNegativeZero =>
    "Negative zero coercion (z) not allowed in integer format specifier".toList
  | .codeSign => "Sign not allowed with integer format specifier 'c'".toList
  | .codeAlternate => "Alternate form (#) not allowed with integer format specifier 'c'".toList
  | .precisionTooBig => "precision too big".toList

def Mismatch.message : Mismatch → Text
  | .notSubscriptable kind => '\'' :: kind ++ "' object is not subscriptable".toList
  | .textIndex => "string indices must be integers, not 'str'".toList
  | .listIndex => "list indices must be integers or slices, not str".toList
  | .unsupportedSpec kind =>
    "unsupported format string passed to ".toList ++ kind ++ ".__format__".toList
  | .notText kind => "__str__ returned non-string (type ".toList ++ kind ++ [')']

def Failure.message? : Failure → Option Text
  | .misuse m => some m.message
  | .noField key => some key.quoted
  | .noAttribute kind name =>
    some ('\'' :: kind ++ "' object has no attribute '".toList ++ name ++ ['\''])
  | .textEnd => some "string index out of range".toList
  | .listEnd => some "list index out of range".toList
  | .mismatch m => some m.message
  | .overflow => none
  | .memory => none

end Lockstep.Template
