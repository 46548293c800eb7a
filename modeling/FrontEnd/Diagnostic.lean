/-
Diagnostics: what was wrong with a file, where, and in which words. A
syntax error is its cause and the token at which it was noticed; it
stands where that token stands.
-/
import FrontEnd.Token.Basic
import FrontEnd.Token.Problem

namespace FrontEnd

/-- Why reading cannot go on at a token. -/
inductive SyntaxProblem where
  /-- Something else had to come. -/
  | expected (wanted : String)
  /-- Nothing that begins this way can come. -/
  | unexpected
  | nestingTooDeep
deriving DecidableEq, Repr

/-- A syntax problem and the token that it was noticed at. -/
structure SyntaxError where
  problem : SyntaxProblem
  /-- The token that came instead. -/
  found : Token
deriving DecidableEq, Repr

namespace SyntaxError

/-- The place of the token. -/
def location (e : SyntaxError) : Location :=
  e.found.location

/-- The error in words, without its place. -/
def message (e : SyntaxError) : String :=
  match e.problem with
  | .expected wanted => s!"Expected {wanted}, found {e.found.describe}"
  | .unexpected => s!"Unexpected {e.found.describe}"
  | .nestingTooDeep => s!"Nesting too deep, found {e.found.describe}"

end SyntaxError

/-- What can be wrong with a file, with its place. -/
inductive Diagnostic where
  | lexical (error : LexicalError)
  | syntactic (error : SyntaxError)
deriving DecidableEq, Repr

namespace Diagnostic

/-- Where the error is. -/
def location : Diagnostic → Location
  | lexical e => e.location
  | syntactic e => e.location

/-- Which part of the program reports it. -/
def label : Diagnostic → String
  | lexical _ => "LexError"
  | syntactic _ => "ParseError"

/-- Whether the characters are wrong, and not what they make up. -/
def isLexical : Diagnostic → Bool
  | lexical _ => true
  | syntactic _ => false

/-- Place and words of an error, after what kind of error it is. -/
def sentence (what : String) (l : Location) (message : String) : String :=
  s!"{what} error at line {l.line}, column {l.column}: {message}"

/-- The full text. -/
def message : Diagnostic → String
  | lexical e => sentence "Lexer" e.location e.problem.message
  | syntactic e => sentence "Parse" e.location e.message

end Diagnostic

end FrontEnd
