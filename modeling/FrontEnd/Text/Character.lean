/-
Classes of characters. The blanks and the letters of the language come
from its own rules; whitespace, letters and digits beyond the ASCII
range come from the Unicode character database.
-/
import FrontEnd.Text.Alphabetic
import FrontEnd.Text.Numeric

namespace FrontEnd.Text

/-- The characters with the property White_Space. -/
def whiteSpace : Ranges := [
  (0x9, 0xD), (0x20, 0x20), (0x85, 0x85), (0xA0, 0xA0),
  (0x1680, 0x1680), (0x2000, 0x200A), (0x2028, 0x2029),
  (0x202F, 0x202F), (0x205F, 0x205F), (0x3000, 0x3000)]

/-- Whitespace of any script; this is what trimming takes off. -/
def isSpace (c : Char) : Bool :=
  whiteSpace.contains c.toNat

/-- Whitespace that may stand between two tokens of one line. -/
def isBlank (c : Char) : Bool :=
  c == ' ' || c == '\t' || c == '\x0b' || c == '\x0c'

/-- Letters of any script. -/
def isLetter (c : Char) : Bool :=
  if c.toNat < 0x80 then c.isAlpha else alphabetic.contains c.toNat

/-- Letters, digits and other number characters of any script. -/
def isAlphanumeric (c : Char) : Bool :=
  if c.toNat < 0x80 then c.isAlphanum
  else alphabetic.contains c.toNat || numeric.contains c.toNat

/-- What a word may start with. -/
def isWordStart (c : Char) : Bool :=
  isLetter c || c == '_' || c == '$'

/-- What a word may go on with. -/
def isWordPart (c : Char) : Bool :=
  isAlphanumeric c || c == '_' || c == '$'

/-- The text without the whitespace at its start. -/
def trimStart (cs : List Char) : List Char :=
  cs.dropWhile isSpace

/-- The text without the whitespace at its end. -/
def trimEnd (cs : List Char) : List Char :=
  (cs.reverse.dropWhile isSpace).reverse

/-- The text without the whitespace around it. -/
def trim (cs : List Char) : List Char :=
  trimEnd (trimStart cs)

/-- All that core takes for whitespace is whitespace here. -/
theorem isSpace_of_isWhitespace {c : Char} (h : c.isWhitespace) :
    isSpace c := by
  simp [Char.isWhitespace] at h
  rcases h with ((rfl | rfl) | rfl) | rfl <;> decide

/-- A blank is whitespace. -/
theorem isSpace_of_isBlank {c : Char} (h : isBlank c) : isSpace c := by
  simp [isBlank] at h
  rcases h with ((rfl | rfl) | rfl) | rfl <;> decide

end FrontEnd.Text
