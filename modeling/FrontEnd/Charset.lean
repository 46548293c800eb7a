/-
The character sets in which source files can be written, the names they
go by, and how each turns bytes into text.
-/
import FrontEnd.Text.Character
import FrontEnd.Text.Utf8

namespace FrontEnd

open Text

/-- A set of characters with its form in bytes. -/
inductive Charset where
  | utf8
  | ascii
  | latin1
deriving DecidableEq, Repr, Inhabited

/-- Text together with the answer whether all of the bytes it was read
from are valid in the character set. -/
structure Decoded where
  text : List Char
  valid : Bool
deriving DecidableEq, Repr

namespace Charset

/-- The name under which a character set is reported. -/
def name : Charset → String
  | .utf8 => "UTF-8"
  | .ascii => "US-ASCII"
  | .latin1 => "ISO-8859-1"

/-- The accepted spellings, in lower case. -/
def spellings : List (String × Charset) := [
  ("utf-8", .utf8), ("utf8", .utf8),
  ("us-ascii", .ascii), ("ascii", .ascii), ("us_ascii", .ascii),
  ("iso-8859-1", .latin1), ("iso8859-1", .latin1),
  ("iso_8859_1", .latin1), ("latin1", .latin1), ("latin-1", .latin1)]

/-- The character set of a spelling, whatever its case and the
whitespace around it. -/
def ofName? (name : String) : Option Charset :=
  spellings.lookup
    (String.ofList ((trim name.toList).map Char.toLower))

/-- Reads bytes in a character set. What is not valid in it becomes a
replacement character. -/
def decode (charset : Charset) (bytes : List UInt8) : Decoded :=
  match charset with
  | .utf8 =>
    let (text, valid) := Utf8.decode bytes
    ⟨text, valid⟩
  | .ascii =>
    ⟨bytes.map fun b =>
        if b < 0x80 then Char.ofNat b.toNat else Utf8.replacement,
      bytes.all (· < 0x80)⟩
  | .latin1 => ⟨bytes.map fun b => Char.ofNat b.toNat, true⟩

end Charset

end FrontEnd
