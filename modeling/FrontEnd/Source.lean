/-
Source files, in memory. A file that comes as bytes is decoded, and one
byte order mark at its start is dropped; a text is taken as it is.
-/
import FrontEnd.Charset

namespace FrontEnd

open Text

/-- The text of a file, and how it was come by. -/
structure SourceFile where
  path : String
  text : List Char
  charset : Charset
  /-- Whether some bytes were not valid in the character set. -/
  decodeError : Bool
deriving DecidableEq, Repr

namespace SourceFile

/-- The character that marks the byte order at the start of a file. -/
def byteOrderMark : Char := '\ufeff'

/-- The text without one mark at its start. -/
def dropMark : List Char → List Char
  | [] => []
  | c :: cs => if c == byteOrderMark then cs else c :: cs

/-- A file read as bytes in a character set. -/
def ofBytes (path : String) (bytes : List UInt8) (charset : Charset) :
    SourceFile :=
  let decoded := charset.decode bytes
  ⟨path, dropMark decoded.text, charset, !decoded.valid⟩

/-- A text from elsewhere. -/
def ofText (path : String) (text : List Char) : SourceFile :=
  ⟨path, text, .utf8, false⟩

end SourceFile

end FrontEnd
