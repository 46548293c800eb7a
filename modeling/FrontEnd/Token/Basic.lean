/-
Tokens: what they are, the questions that a grammar asks about them, and
the words by which messages name them.
-/
import FrontEnd.Text.Location
import FrontEnd.Word

namespace FrontEnd

/-- The classes of tokens. -/
inductive TokenKind where
  | directive
  | identifier
  | keyword
  | number
  | string
  | character
  | operator
  | punctuation
  | endOfFile
deriving DecidableEq, Repr, Inhabited

/-- The class of a token as listings show it. -/
def TokenKind.label : TokenKind → String
  | directive => "PREPROCESSOR"
  | identifier => "IDENTIFIER"
  | keyword => "KEYWORD"
  | number => "NUMBER"
  | string => "STRING"
  | character => "CHARACTER"
  | operator => "OPERATOR"
  | punctuation => "PUNCTUATION"
  | endOfFile => "EOF"

/-- A token with the text that it stands for: its source text or, for a
directive, its logical line. -/
structure Token where
  kind : TokenKind
  value : String
  span : Span
  location : Location
deriving DecidableEq, Repr, Inhabited

namespace Token

/-- What a reader finds behind the last token. -/
def endOfInput : Token := ⟨.endOfFile, "", ⟨0, 0⟩, .start⟩

/-- Whether the token is a directive, which no grammar rule sees. -/
def isDirective (t : Token) : Bool :=
  t.kind == .directive

/-- Whether the token marks the end of the text. -/
def isEnd (t : Token) : Bool :=
  t.kind == .endOfFile

/-- Whether the token is a name that is not reserved. -/
def isName (t : Token) : Bool :=
  t.kind == .identifier

/-- Whether the token is a string literal. -/
def isString (t : Token) : Bool :=
  t.kind == .string

/-- Whether the token is this bracket or separator. -/
def isPunct (t : Token) (value : String) : Bool :=
  t.kind == .punctuation && t.value == value

/-- Whether the token is this keyword. -/
def isKeyword (t : Token) (value : String) : Bool :=
  t.kind == .keyword && t.value == value

/-- Whether the token is an operator of exactly this spelling. -/
def isSpelled (t : Token) (spelling : String) : Bool :=
  t.kind == .operator && t.value == spelling

/-- Whether the token is this operator, in whatever spelling. -/
def isOperator (t : Token) (operator : String) : Bool :=
  t.kind == .operator && Word.canonical t.value == operator

/-- Whether the token opens a bracketed group. -/
def opens (t : Token) : Bool :=
  t.isPunct "(" || t.isPunct "[" || t.isPunct "\x7b"

/-- Whether the token closes a bracketed group. -/
def closes (t : Token) : Bool :=
  t.isPunct ")" || t.isPunct "]" || t.isPunct "\x7d"

/-- How a message names the token. -/
def describe (t : Token) : String :=
  match t.kind with
  | .directive => s!"directive '{t.value}'"
  | .identifier => s!"identifier '{t.value}'"
  | .number => s!"number {t.value}"
  | .string => s!"string literal {t.value}"
  | .character => s!"char literal {t.value}"
  | .keyword | .operator | .punctuation => s!"'{t.value}'"
  | .endOfFile => "end of file"

end Token

end FrontEnd
