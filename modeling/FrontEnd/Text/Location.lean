/-
Places and stretches of a text. A location counts lines and, within a
line, characters, both from one; a line ends with a line feed, with a
carriage return, or with the two together, which count once. A span
counts the bytes of the UTF-8 form of the text from zero and leaves out
its end.

`Location.after` is the only way in which this library moves a location:
whoever has read some text stands where that text leads.
-/
namespace FrontEnd

/-- A place in a text, as line and column. -/
structure Location where
  line : Nat
  column : Nat
deriving DecidableEq, Repr, Inhabited

/-- Half-open stretch of bytes of a text. -/
structure Span where
  start : Nat
  stop : Nat
deriving DecidableEq, Repr, Inhabited

namespace Text

/-- The characters that end a line, alone or as the pair CR LF. -/
def isBreak (c : Char) : Bool :=
  c == '\n' || c == '\r'

/-- Whether the text goes on with a line break. -/
def startsBreak : List Char → Bool
  | c :: _ => isBreak c
  | [] => false

/-- Size of a text in bytes of its UTF-8 form. -/
def byteSize (cs : List Char) : Nat :=
  cs.foldl (fun size c => size + c.utf8Size) 0

/-- The text from a given byte on. -/
def dropBytes : Nat → List Char → List Char
  | _, [] => []
  | 0, cs => cs
  | n, c :: cs => dropBytes (n - c.utf8Size) cs

end Text

namespace Location

open Text

/-- Where every text begins. -/
def start : Location := ⟨1, 1⟩

/-- The location after reading the given text. -/
def after : Location → List Char → Location
  | l, [] => l
  | l, '\r' :: '\n' :: cs => after ⟨l.line + 1, 1⟩ cs
  | l, c :: cs =>
    if isBreak c then after ⟨l.line + 1, 1⟩ cs
    else after ⟨l.line, l.column + 1⟩ cs

/-- Reading order: by line, then by column. -/
def le (a b : Location) : Bool :=
  a.line < b.line || (a.line == b.line && a.column ≤ b.column)

/-- Line and column with a colon between them. -/
def render (l : Location) : String :=
  s!"{l.line}:{l.column}"

@[simp] theorem after_nil (l : Location) : l.after [] = l := rfl

end Location

namespace Span

/-- Whether the span covers nothing. -/
def isEmpty (s : Span) : Bool :=
  s.start == s.stop

/-- The stretch of `source` that the span covers. -/
def slice (s : Span) (source : String) : String :=
  String.Pos.Raw.extract source ⟨s.start⟩ ⟨s.stop⟩

end Span

end FrontEnd
