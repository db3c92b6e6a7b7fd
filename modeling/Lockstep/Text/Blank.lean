import Lockstep.Text.Basic
/-!
White space: the characters that Unicode counts as spaces or as separators of lines, words or
fields, the four information separators included.
-/

set_option autoImplicit false

namespace Lockstep.Text

def blankRanges : Ranges := [
  (0x9, 0xD), (0x1C, 0x20), (0x85, 0x85), (0xA0, 0xA0), (0x1680, 0x1680), (0x2000, 0x200A),
  (0x2028, 0x2029), (0x202F, 0x202F), (0x205F, 0x205F), (0x3000, 0x3000)]

def isBlank (c : Char) : Bool := blankRanges.has c

theorem isBlank_of_isWhitespace {c : Char} (h : c.isWhitespace = true) : isBlank c = true := by
  have hc : ((c = ' ' ∨ c = '\t') ∨ c = '\r') ∨ c = '\n' := by simpa [Char.isWhitespace] using h
  rcases hc with ((rfl | rfl) | rfl) | rfl <;> decide

def trimBlank (t : Text) : Text := trim isBlank t

end Lockstep.Text
