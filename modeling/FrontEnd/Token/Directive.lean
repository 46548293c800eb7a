/-
Preprocessor directives. A directive goes from its `#` to the end of its
logical line, and its normalized text is what is left of that line:

- a joined line break becomes one space,
- comments are dropped and nothing takes their place,
- string and character literals are copied, whatever they hold,
- whitespace at the end is taken off.

The scan is an automaton over the characters with a look at what
follows. A block comment or a string left open takes the rest of the
text (that of a string is copied), a character literal left open ends
with its line; each is reported where it was opened.
-/
import FrontEnd.Text.Reading
import FrontEnd.Text.Character
import FrontEnd.Token.Problem

namespace FrontEnd

open Text

/-- A directive after its lines were joined and its comments dropped. -/
structure LogicalLine where
  text : String
  /-- The line of the `#`. -/
  startLine : Nat
  /-- The last line that belongs to it. -/
  endLine : Nat
deriving DecidableEq, Repr, Inhabited

/-- How many lines of the source the logical line was made from. -/
def LogicalLine.physicalLines (l : LogicalLine) : Nat :=
  l.endLine - l.startLine + 1

/-- A problem inside some text, with what stands in front of it there. -/
structure ProblemAt where
  problem : LexicalProblem
  before : List Char
deriving DecidableEq, Repr

namespace Directive

/-- What the scan is inside of. A literal or comment remembers what was
read before it opened, last character first. -/
inductive Mode where
  | code
  | lineComment
  | blockComment (before : List Char)
  | literal (quote : Char) (escaped : Bool) (before : List Char)
  /-- A string that was still open at the end of its line. -/
  | runaway (before : List Char)
deriving DecidableEq, Repr

/-- What a character leads to. -/
inductive Step where
  /-- The directive ends in front of the character. -/
  | stop (problem : Option ProblemAt)
  /-- The character belongs to the directive, and so do the next
  `swallow` ones, which have no effect of their own. -/
  | go (mode : Mode) (swallow : Nat) (emit : Option Char)
      (inNumber : Bool)

/-- Characters that make up the words and numbers of a directive. -/
def isNumberPart (c : Char) : Bool :=
  isAlphanumeric c || c == '_' || c == '.'

/-- Length of the line break that comes next. -/
def breakLength : List Char → Nat
  | '\r' :: '\n' :: _ => 2
  | _ => 1

/-- A step outside of literals and comments. `inNumber` says that the
emitted text ends inside a number, where a quote separates digits. -/
def codeStep (inNumber : Bool) (read text : List Char) (c : Char)
    (cs : List Char) : Step :=
  if c == '/' && cs.head? == some '/' then
    .go .lineComment 1 none inNumber
  else if c == '/' && cs.head? == some '*' then
    .go (.blockComment read) 1 none inNumber
  else if c == '"' then .go (.literal c false read) 0 (some c) false
  else if c == '\'' then
    if inNumber && cs.head?.any Char.isAlphanum then
      .go .code 0 (some c) inNumber
    else .go (.literal c false read) 0 (some c) false
  else if isNumberPart c then
    let inside := text.head?.any fun last =>
      isNumberPart last || last == '\''
    .go .code 0 (some c) (if inside then inNumber else c.isDigit)
  else .go .code 0 (some c) false

/-- A step at a line break that is not joined. -/
def breakStep (mode : Mode) (inNumber : Bool) (c : Char) : Step :=
  match mode with
  | .code | .lineComment => .stop none
  | .blockComment _ => .go mode 0 none inNumber
  | .literal quote _ before =>
    if quote == '"' then .go (.runaway before) 0 (some c) false
    else .stop (some ⟨.openCharacter, before.reverse⟩)
  | .runaway _ => .go mode 0 (some c) false

/-- A step inside a line, at a character that joins nothing. -/
def plainStep (mode : Mode) (inNumber : Bool) (read text : List Char)
    (c : Char) (cs : List Char) : Step :=
  match mode with
  | .code => codeStep inNumber read text c cs
  | .lineComment => .go mode 0 none inNumber
  | .blockComment _ =>
    if c == '*' && cs.head? == some '/' then .go .code 1 none inNumber
    else .go mode 0 none inNumber
  | .literal quote escaped before =>
    if escaped then .go (.literal quote false before) 0 (some c) inNumber
    else if c == '\\' then
      .go (.literal quote true before) 0 (some c) inNumber
    else if c == quote then .go .code 0 (some c) inNumber
    else .go mode 0 (some c) inNumber
  | .runaway _ => .go mode 0 (some c) false

/-- A step at a backslash directly before a line break, where there is
a line to be joined. -/
def joinStep (mode : Mode) (cs : List Char) : Step :=
  .go mode (breakLength cs)
    (if mode = .lineComment then none else some ' ') false

/-- Whether a backslash joins lines here. -/
def Mode.joins : Mode → Bool
  | .blockComment _ | .runaway _ => false
  | _ => true

/-- The next step of the scan. -/
def step (mode : Mode) (inNumber : Bool) (read text : List Char)
    (c : Char) (cs : List Char) : Step :=
  if isBreak c then breakStep mode inNumber c
  else if c == '\\' && startsBreak cs && mode.joins then joinStep mode cs
  else plainStep mode inNumber read text c cs

/-- What is wrong when the text ends inside the mode. -/
def Mode.atEnd : Mode → Option ProblemAt
  | .code | .lineComment => none
  | .blockComment before => some ⟨.openComment, before.reverse⟩
  | .literal quote _ before =>
    some ⟨if quote == '"' then .openString else .openCharacter,
      before.reverse⟩
  | .runaway before => some ⟨.openString, before.reverse⟩

/-- A directive that was scanned. -/
structure Scan where
  reading : Reading
  /-- The text emitted, last character first. -/
  text : List Char
  problem : Option ProblemAt

/-- The scan from somewhere inside a directive. -/
def scanFrom (swallow : Nat) (mode : Mode) (inNumber : Bool)
    (read text : List Char) : List Char → Scan
  | [] => ⟨⟨read, []⟩, text, mode.atEnd⟩
  | c :: cs =>
    match swallow with
    | swallow + 1 =>
      scanFrom swallow mode inNumber (c :: read) text cs
    | 0 =>
      match step mode inNumber read text c cs with
      | .stop problem => ⟨⟨read, c :: cs⟩, text, problem⟩
      | .go mode swallow emit inNumber =>
        scanFrom swallow mode inNumber (c :: read) (emit.toList ++ text) cs

/-- The directive at the start of a text, whatever that text is. -/
def scan (cs : List Char) : Scan :=
  scanFrom 0 .code false [] [] cs

/-- The normalized text of a directive. -/
def Scan.line (s : Scan) : List Char :=
  (s.text.dropWhile isSpace).reverse

theorem from_scanFrom (swallow : Nat) (mode : Mode) (inNumber : Bool)
    (read text cs : List Char) :
    Reading.From ⟨read, cs⟩
      (scanFrom swallow mode inNumber read text cs).reading := by
  induction cs generalizing swallow mode inNumber read text with
  | nil => exact .refl _
  | cons c cs ih =>
    cases swallow with
    | succ swallow => exact (ih _ _ _ _ _).step
    | zero =>
      simp only [scanFrom]
      split
      · exact .refl _
      · exact (ih _ _ _ _ _).step

end Directive

end FrontEnd
