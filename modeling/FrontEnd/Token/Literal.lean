/-
The extent of literals and words. Each scanner takes up after the
characters that told it apart and says how far the token goes.

A string or character literal ends at its quote and takes the word that
follows as its suffix. A line break ends a character literal early; a
string that is left open at a line break has no end that could be
trusted and takes the rest of the text.
-/
import FrontEnd.Text.Reading
import FrontEnd.Text.Character
import FrontEnd.Token.Problem

namespace FrontEnd

open Text

/-- How far a literal goes, and what is wrong with it. -/
structure Extent where
  reading : Reading
  problems : List LexicalProblem

namespace Extent

-- =========================================== words and numbers

/-- The rest of a word. -/
def word (read cs : List Char) : Reading :=
  Reading.moveWhile isWordPart read cs

/-- The rest of a number whose last character so far is `last`. Digits,
letters, underscores and points go on, so do a sign after an exponent
letter and a separator between two digits or letters. -/
def number (last : Char) (read : List Char) : List Char → Reading
  | [] => ⟨read, []⟩
  | c :: cs =>
    if c.isAlphanum || c == '_' || c == '.' then
      number c (c :: read) cs
    else if (c == '+' || c == '-') &&
        (last == 'e' || last == 'E' || last == 'p' || last == 'P') then
      number c (c :: read) cs
    else if c == '\'' && last.isAlphanum &&
        cs.head?.any Char.isAlphanum then
      number c (c :: read) cs
    else ⟨read, c :: cs⟩

-- =========================================== quoted literals

/-- The body of a literal up to its closing quote, and whether that was
found before the line ended. After a backslash the next character is
part of the body whatever it is, a line break only where lines are
`joined`. -/
def body (joined : Bool) (quote : Char) (read : List Char) :
    List Char → Reading × Bool
  | [] => (⟨read, []⟩, false)
  | '\\' :: '\r' :: '\n' :: cs =>
    if joined then body joined quote ('\n' :: '\r' :: '\\' :: read) cs
    else (⟨'\\' :: read, '\r' :: '\n' :: cs⟩, false)
  | '\\' :: c :: cs =>
    if isBreak c && !joined then (⟨'\\' :: read, c :: cs⟩, false)
    else body joined quote (c :: '\\' :: read) cs
  | c :: cs =>
    if c == quote then (⟨c :: read, cs⟩, true)
    else if isBreak c then (⟨read, c :: cs⟩, false)
    else body joined quote (c :: read) cs

/-- A literal that its line or the text left open. -/
def leftOpen (quote : Char) (r : Reading) : Extent :=
  if quote == '"' then ⟨r.toEnd, [.openString]⟩
  else ⟨r, [.openCharacter]⟩

/-- A literal from behind its opening quote. -/
def quoted (quote : Char) (read cs : List Char) : Extent :=
  match body true quote read cs with
  | (r, true) => ⟨word r.read r.rest, []⟩
  | (r, false) => leftOpen quote r

-- =========================================== raw strings

/-- The longest delimiter of a raw string. -/
def maxDelimiter : Nat := 16

/-- The delimiter of a raw string: what stands before its parenthesis,
if that is short enough and free of characters that it must not hold. -/
def delimiter? (cs : List Char) : Option (List Char) :=
  let (delimiter, after) := (cs.take (maxDelimiter + 1)).span fun c =>
    !(c == '(' || c == ')' || c == '\\' || c == '"' || isSpace c)
  if after.head? == some '(' then some delimiter else none

/-- Reads through the first occurrence of `closing`, if there is one. -/
def through (closing read : List Char) : List Char → Option Reading
  | [] => none
  | c :: cs =>
    if closing.isPrefixOf (c :: cs) then
      some ⟨closing.reverseAux read, (c :: cs).drop closing.length⟩
    else through closing (c :: read) cs

/-- A raw string from behind its opening quote. Without a delimiter it
is read as an ordinary string that joins no lines and has no suffix. -/
def rawString (read cs : List Char) : Extent :=
  match delimiter? cs with
  | some delimiter =>
    match through (')' :: delimiter ++ ['"']) read cs with
    | some r => ⟨word r.read r.rest, []⟩
    | none => ⟨Reading.toEnd ⟨read, cs⟩, [.openRawString]⟩
  | none =>
    match body false '"' read cs with
    | (r, true) => ⟨r, [.rawDelimiter]⟩
    | (r, false) => ⟨r.toEnd, [.rawDelimiter, .openString]⟩

-- =========================================== what is read stays whole

theorem from_word (read cs : List Char) :
    Reading.From ⟨read, cs⟩ (word read cs) :=
  Reading.from_moveWhile _ _ _

theorem from_number (last : Char) (read cs : List Char) :
    Reading.From ⟨read, cs⟩ (number last read cs) := by
  induction cs generalizing last read with
  | nil => exact .refl _
  | cons c cs ih =>
    rw [number]
    split
    · exact (ih _ _).step
    · split
      · exact (ih _ _).step
      · split
        · exact (ih _ _).step
        · exact .refl _

theorem from_body (joined : Bool) (quote : Char) (read cs : List Char) :
    Reading.From ⟨read, cs⟩ (body joined quote read cs).1 := by
  fun_induction body joined quote read cs with
  | case1 read => exact .refl _
  | case2 read cs h ih => exact ih.step.step.step
  | case3 read cs h => exact .step (.refl _)
  | case4 read c cs _ h => exact .step (.refl _)
  | case5 read c cs _ h ih => exact ih.step.step
  | case6 read c cs _ _ h => exact .step (.refl _)
  | case7 read c cs _ _ h k => exact .refl _
  | case8 read c cs _ _ h k ih => exact ih.step

theorem from_leftOpen (quote : Char) (r : Reading) :
    Reading.From r (leftOpen quote r).reading := by
  rw [leftOpen]
  split
  · exact Reading.from_toEnd r
  · exact .refl _

theorem from_quoted (quote : Char) (read cs : List Char) :
    Reading.From ⟨read, cs⟩ (quoted quote read cs).reading := by
  have h := from_body true quote read cs
  rw [quoted]
  split <;> rename_i r heq <;> rw [heq] at h
  · exact h.trans (from_word _ _)
  · exact h.trans (from_leftOpen _ _)

theorem from_through {closing read cs : List Char} {r : Reading}
    (h : through closing read cs = some r) :
    Reading.From ⟨read, cs⟩ r := by
  fun_induction through closing read cs with
  | case1 => simp at h
  | case2 read c cs p =>
    obtain ⟨after, k⟩ := List.isPrefixOf_iff_prefix.1 p
    rw [← Option.some.inj h]
    refine ⟨closing, by simp [List.reverseAux_eq], ?_⟩
    rw [← k]
    simp
  | case3 read c cs p ih => exact (ih h).step

theorem from_rawString (read cs : List Char) :
    Reading.From ⟨read, cs⟩ (rawString read cs).reading := by
  rw [rawString]
  split
  · split
    · rename_i r heq
      exact (from_through heq).trans (from_word _ _)
    · exact Reading.from_toEnd _
  · have h := from_body false '"' read cs
    split <;> rename_i r heq <;> rw [heq] at h
    · exact h
    · exact h.trans (Reading.from_toEnd _)

end Extent

end FrontEnd
