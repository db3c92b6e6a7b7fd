import Lockstep.Text.Basic
/-!
Places in a text: an offset counts characters from 0, a line and a column count from 1.
-/

set_option autoImplicit false

namespace Lockstep.Text

def lineAt (t : Text) (offset : Nat) : Nat := (t.take offset).count '\n' + 1

def columnAt (t : Text) (offset : Nat) : Nat :=
  ((t.take offset).reverse.takeWhile (· != '\n')).length + 1

end Lockstep.Text
