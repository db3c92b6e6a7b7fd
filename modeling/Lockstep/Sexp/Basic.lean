import Lockstep.Number.Shortest
import Lockstep.Text.Quoted
/-!
S-expressions: symbols, texts, numbers, lists in round brackets, groups in square ones, and quoted
expressions. `shown` is an expression as messages show it.
-/

set_option autoImplicit false

namespace Lockstep

inductive Sexp where
  | symbol (name : Text)
  | text (t : Text)
  | int (i : Int)
  | float (f : Binary64)
  | list (xs : List Sexp)
  | brackets (xs : List Sexp)
  | quote (x : Sexp)
  deriving Repr

namespace Sexp

def kindName : Sexp → Text
  | .symbol _ => "Symbol".toList
  | .text _ => "str".toList
  | .int _ => "int".toList
  | .float _ => "float".toList
  | .list _ => "list".toList
  | .brackets _ => "Brackets".toList
  | .quote _ => "Quoted".toList

mutual

def shown : Sexp → Text
  | .symbol name => "Symbol(".toList ++ Text.quoted name ++ [')']
  | .text t => Text.quoted t
  | .int i => Text.ofInt i
  | .float f => f.display
  | .list xs => '[' :: shownList xs ++ [']']
  | .brackets xs => "Brackets(I=[".toList ++ shownList xs ++ [']', ')']
  | .quote x => "Quoted(".toList ++ shown x ++ [')']

def shownList : List Sexp → Text
  | [] => []
  | [x] => shown x
  | x :: y :: xs => shown x ++ ',' :: ' ' :: shownList (y :: xs)

end

/-- The text of an expression that names something: a symbol or a text. -/
def word? : Sexp → Option Text
  | .symbol name => some name
  | .text t => some t
  | _ => none

end Sexp
end Lockstep
