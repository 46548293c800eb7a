/-
Text made visible: quotes, the backslash, the usual control characters
and everything that has no shape of its own are written as escapes.
-/
import FrontEnd.Text.Extending
import FrontEnd.Text.Unprintable

namespace FrontEnd.Text

/-- Lower-case hexadecimal digits of a number, without leading zeros. -/
def hexDigits (n : Nat) : List Char :=
  Nat.toDigits 16 n

/-- The sound marks of half width. They extend the character before
them and all the same are letters with a place of their own. -/
def soundMarks : Ranges := [(0xFF9E, 0xFF9F)]

/-- The letters that leave no mark: the Hangul fillers. They are all the
characters with the property Default_Ignorable_Code_Point that neither
extend another character nor are unprintable by their category. -/
def fillers : Ranges :=
  [(0x115F, 0x1160), (0x3164, 0x3164), (0xFFA0, 0xFFA0)]

/-- Whether a code point has no shape that can be shown by itself. -/
def isShapeless (code : Nat) : Bool :=
  (extending.contains code && !soundMarks.contains code)
    || fillers.contains code || unprintable.contains code

/-- Whether a character is written by its code point. -/
def needsCode (c : Char) : Bool :=
  c != ' ' && isShapeless c.toNat

/-- A character as it is written where `quotes` have to be escaped. -/
def escapeChar (quotes : List Char) (c : Char) : List Char :=
  if c == '\x00' then ['\\', '0']
  else if c == '\t' then ['\\', 't']
  else if c == '\r' then ['\\', 'r']
  else if c == '\n' then ['\\', 'n']
  else if c == '\\' || quotes.contains c then ['\\', c]
  else if needsCode c then
    ['\\', 'u', '\x7b'] ++ hexDigits c.toNat ++ ['\x7d']
  else [c]

/-- A character alone, with both kinds of quotes escaped. -/
def escape (c : Char) : String :=
  String.ofList (escapeChar ['"', '\''] c)

/-- A text between double quotes. -/
def quoted (text : String) : String :=
  String.ofList
    ('"' :: (text.toList.flatMap (escapeChar ['"']) ++ ['"']))

end FrontEnd.Text
