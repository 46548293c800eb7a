/-
Texts that are written token by token. `Spells` says which texts are one
token and of which kind, `IsTrivia` which texts may stand between tokens; a
layout is a list of the former with some of the latter behind each of them.

Both say what may be written and not how it is read. A spelling is read
back only if what follows it cannot be taken for more of it, which is why
a gap begins with a blank or a line break.
-/
import FrontEnd.Token.Stream

namespace FrontEnd

open Text

-- ================================================================= trivia

/-- The rest of a line comment, through the line break that ends it. A
backslash joins the break behind it to the line, both characters of it if
these are a carriage return and a line feed. -/
inductive LineEnd : List Char → Prop
  | stop {b : Char} (hb : isBreak b = true) : LineEnd [b]
  | char {c : Char} {cs : List Char} (hc : isBreak c = false)
      (hjoin : c = '\\' → startsBreak cs = false) (h : LineEnd cs) :
      LineEnd (c :: cs)
  | joined {b : Char} {cs : List Char} (hb : isBreak b = true)
      (hpair : b = '\r' → cs.head? ≠ some '\n') (h : LineEnd cs) :
      LineEnd ('\\' :: b :: cs)
  | joinedPair {cs : List Char} (h : LineEnd cs) :
      LineEnd ('\\' :: '\r' :: '\n' :: cs)

/-- Blanks, line breaks, joined breaks and comments, in any order. -/
inductive IsTrivia : List Char → Prop
  | nil : IsTrivia []
  | blank {c : Char} {cs : List Char}
      (hc : isBlank c = true ∨ isBreak c = true) (h : IsTrivia cs) :
      IsTrivia (c :: cs)
  | joined {b : Char} {cs : List Char} (hb : isBreak b = true)
      (h : IsTrivia cs) : IsTrivia ('\\' :: b :: cs)
  | lineComment {line cs : List Char} (hline : LineEnd line)
      (h : IsTrivia cs) : IsTrivia ('/' :: '/' :: (line ++ cs))
  | blockComment {body cs : List Char} (hbody : ¬['*', '/'] <:+: body)
      (h : IsTrivia cs) :
      IsTrivia ('/' :: '*' :: (body ++ '*' :: '/' :: cs))

/-- Whether a lexeme can end in front of the text: there is none, or it
begins with a blank or a line break. -/
def endsLexeme (cs : List Char) : Bool :=
  cs.head?.all fun c => isBlank c || isBreak c

-- ============================================================== spellings

/-- What a number may go on with behind the character `last`. -/
inductive NumberTail : Char → List Char → Prop
  | nil {last : Char} : NumberTail last []
  | part {last c : Char} {cs : List Char}
      (hc : c.isAlphanum = true ∨ c = '_' ∨ c = '.')
      (h : NumberTail c cs) : NumberTail last (c :: cs)
  | sign {last c : Char} {cs : List Char} (hc : c = '+' ∨ c = '-')
      (hlast : last ∈ ['e', 'E', 'p', 'P']) (h : NumberTail c cs) :
      NumberTail last (c :: cs)
  | separator {last d : Char} {cs : List Char}
      (hlast : last.isAlphanum = true) (hd : d.isAlphanum = true)
      (h : NumberTail d cs) : NumberTail last ('\'' :: d :: cs)

/-- What may stand between the quotes of a literal. A backslash takes the
character behind it with it, whatever that is; a line break stands in no
other place. -/
inductive QuotedBody (quote : Char) : List Char → Prop
  | nil : QuotedBody quote []
  | char {c : Char} {cs : List Char} (hquote : c ≠ quote) (hslash : c ≠ '\\')
      (hc : isBreak c = false) (h : QuotedBody quote cs) :
      QuotedBody quote (c :: cs)
  | escape {c : Char} {cs : List Char} (h : QuotedBody quote cs) :
      QuotedBody quote ('\\' :: c :: cs)
  | joinedPair {cs : List Char} (h : QuotedBody quote cs) :
      QuotedBody quote ('\\' :: '\r' :: '\n' :: cs)

/-- The delimiters of raw strings. -/
structure IsDelimiter (cs : List Char) : Prop where
  length : cs.length ≤ 16
  chars : ∀ c ∈ cs, c ∉ ['(', ')', '\\', '"'] ∧ isSpace c = false

/-- What a literal may be encoded as. -/
def encodings : List (List Char) :=
  ["", "u8", "u", "U", "L"].map String.toList

/-- The kinds of quoted literals, each with its quotes. -/
def quotes : List (TokenKind × Char) :=
  [(.string, '"'), (.character, '\'')]

/-- The kind of a word, by the tables of the reserved ones. -/
def kindOfWord (word : String) : TokenKind :=
  if word ∈ Word.keywords then .keyword
  else if word ∈ Word.alternatives.map (·.1) then .operator
  else .identifier

/-- What closes a raw string with the delimiter. -/
def rawCloser (delimiter : List Char) : List Char :=
  ')' :: delimiter ++ ['"']

/-- The texts that are one token, and the kind of it. -/
inductive Spells : TokenKind → List Char → Prop
  | word {c : Char} {cs : List Char} (hc : isWordStart c = true)
      (hcs : ∀ d ∈ cs, isWordPart d = true) :
      Spells (kindOfWord (String.ofList (c :: cs))) (c :: cs)
  | number {c : Char} {cs : List Char}
      (hc : c.isDigit = true
        ∨ c = '.' ∧ cs.head?.any Char.isDigit = true)
      (hcs : NumberTail c cs) : Spells .number (c :: cs)
  | quoted {kind : TokenKind} {quote : Char}
      {encoding body suffix : List Char} (hquote : (kind, quote) ∈ quotes)
      (hencoding : encoding ∈ encodings) (hbody : QuotedBody quote body)
      (hsuffix : ∀ c ∈ suffix, isWordPart c = true) :
      Spells kind (encoding ++ quote :: (body ++ quote :: suffix))
  | raw {encoding delimiter body suffix : List Char}
      (hencoding : encoding ∈ encodings) (hdelimiter : IsDelimiter delimiter)
      (hbody : ¬rawCloser delimiter <:+: body)
      (hsuffix : ∀ c ∈ suffix, isWordPart c = true) :
      Spells .string (encoding ++ 'R' :: '"' :: (delimiter ++ '(' :: (body
        ++ (rawCloser delimiter ++ suffix))))
  | operator {op : String} (hop : op ∈ Word.operators)
      (hmark : op ≠ "#" ∧ op ≠ "##") : Spells .operator op.toList
  | punctuator {c : Char} (hc : c ∈ Word.punctuators) :
      Spells .punctuation [c]

-- ================================================================ layouts

/-- A token as it is written. -/
structure Spelling where
  kind : TokenKind
  text : List Char
  spells : Spells kind text

/-- What stands between two tokens. -/
structure Gap where
  text : List Char
  trivia : IsTrivia text
  starts : text ≠ [] ∧ endsLexeme text = true

/-- Tokens with gaps between them. In front of the first one there may be
any trivia, behind the last one a gap. -/
structure Layout where
  lead : List Char
  trivia : IsTrivia lead
  /-- Tokens with the gaps behind them. -/
  spaced : List (Spelling × Gap)
  /-- A token at the end of the text. -/
  last : Option Spelling

namespace Layout

/-- The tokens that are written. -/
def spellings (p : Layout) : List Spelling :=
  p.spaced.map Prod.fst ++ p.last.toList

/-- The text that is written. -/
def text (p : Layout) : List Char :=
  p.lead ++ (p.spaced.flatMap (fun (s, gap) => s.text ++ gap.text)
    ++ p.last.toList.flatMap Spelling.text)

end Layout

end FrontEnd
