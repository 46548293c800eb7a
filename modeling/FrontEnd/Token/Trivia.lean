/-
Text that belongs to no token: blanks with line breaks and joined lines,
and the two kinds of comments. A backslash directly before a line break
joins the next line to its own; a line comment goes on over such a
break, and the break does not begin a line on which a directive could
stand.
-/
import FrontEnd.Text.Reading
import FrontEnd.Text.Character

namespace FrontEnd

open Text

/-- The classes of text between tokens. -/
inductive TriviaKind where
  | blank
  | lineComment
  | blockComment
deriving DecidableEq, Repr, Inhabited

/-- The kind of trivia as listings show it. -/
def TriviaKind.label : TriviaKind → String
  | blank => "Whitespace"
  | lineComment => "LineComment"
  | blockComment => "BlockComment"

/-- Text between tokens, by the stretch that it covers. -/
structure Trivia where
  kind : TriviaKind
  span : Span
deriving DecidableEq, Repr, Inhabited

namespace Trivia

/-- The blanks, line breaks and joined breaks that come next, and
whether a line begins behind them: `fresh` says so in front of them, and
a break that is not joined makes it so. -/
def blanks (fresh : Bool) (read : List Char) : List Char → Reading × Bool
  | [] => (⟨read, []⟩, fresh)
  | '\\' :: '\r' :: '\n' :: cs =>
    blanks fresh ('\n' :: '\r' :: '\\' :: read) cs
  | '\\' :: c :: cs =>
    if isBreak c then blanks fresh (c :: '\\' :: read) cs
    else (⟨read, '\\' :: c :: cs⟩, fresh)
  | c :: cs =>
    if isBreak c then blanks true (c :: read) cs
    else if isBlank c then blanks fresh (c :: read) cs
    else (⟨read, c :: cs⟩, fresh)

/-- A line comment from behind its two slashes. The break that ends it
is not part of it. -/
def lineComment (read : List Char) : List Char → Reading
  | [] => ⟨read, []⟩
  | '\\' :: '\r' :: '\n' :: cs =>
    lineComment ('\n' :: '\r' :: '\\' :: read) cs
  | '\\' :: c :: cs =>
    if isBreak c then lineComment (c :: '\\' :: read) cs
    else lineComment ('\\' :: read) (c :: cs)
  | c :: cs =>
    if isBreak c then ⟨read, c :: cs⟩ else lineComment (c :: read) cs

/-- A block comment from behind its opener, and whether it is closed. -/
def blockComment (read : List Char) : List Char → Reading × Bool
  | [] => (⟨read, []⟩, false)
  | '*' :: '/' :: cs => (⟨'/' :: '*' :: read, cs⟩, true)
  | c :: cs => blockComment (c :: read) cs

theorem from_blanks (fresh : Bool) (read cs : List Char) :
    Reading.From ⟨read, cs⟩ (blanks fresh read cs).1 := by
  fun_induction blanks fresh read cs with
  | case1 => exact .refl _
  | case2 _ _ _ ih => exact ih.step.step.step
  | case3 _ _ _ _ _ _ ih => exact ih.step.step
  | case4 => exact .refl _
  | case5 _ _ _ _ _ _ _ ih => exact ih.step
  | case6 _ _ _ _ _ _ _ _ ih => exact ih.step
  | case7 => exact .refl _

theorem from_lineComment (read cs : List Char) :
    Reading.From ⟨read, cs⟩ (lineComment read cs) := by
  fun_induction lineComment read cs with
  | case1 => exact .refl _
  | case2 _ _ ih => exact ih.step.step.step
  | case3 _ _ _ _ _ ih => exact ih.step.step
  | case4 _ _ _ _ _ ih => exact ih.step
  | case5 => exact .refl _
  | case6 _ _ _ _ _ _ ih => exact ih.step

theorem from_blockComment (read cs : List Char) :
    Reading.From ⟨read, cs⟩ (blockComment read cs).1 := by
  fun_induction blockComment read cs with
  | case1 => exact .refl _
  | case2 => exact .step (.step (.refl _))
  | case3 _ _ _ _ ih => exact ih.step

end Trivia

end FrontEnd
