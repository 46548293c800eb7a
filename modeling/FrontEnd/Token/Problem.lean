/-
What can be wrong with the characters of a text.
-/
import FrontEnd.Text.Location
import FrontEnd.Text.Escape

namespace FrontEnd

/-- Why some characters make up no token. -/
inductive LexicalProblem where
  | openString
  | openRawString
  | openCharacter
  | openComment
  | rawDelimiter
  | unexpected (c : Char)
deriving DecidableEq, Repr

/-- The problem in words. -/
def LexicalProblem.message : LexicalProblem → String
  | openString => "Unterminated string literal"
  | openRawString => "Unterminated raw string literal"
  | openCharacter => "Unterminated character literal"
  | openComment => "Unterminated block comment"
  | rawDelimiter => "Invalid raw string delimiter"
  | unexpected c => s!"Unexpected character: '{Text.escape c}'"

/-- A lexical problem and where it is. -/
structure LexicalError where
  problem : LexicalProblem
  location : Location
deriving DecidableEq, Repr

end FrontEnd
