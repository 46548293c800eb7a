/-
The settings of a run, and the properties text that they can be read
from: a key and a value on each line, with `=` or `:` between them.
Blank lines and lines that start with `#` or `!` say nothing, and keys
that mean nothing here are passed over. The first line that cannot be
taken ends the reading; of several lines with one key, the last counts.
-/
import FrontEnd.Charset

namespace FrontEnd

open Text

/-- What a run can be told about the sources. -/
structure Settings where
  charset : Charset
  /-- Whether reading goes on behind a syntax error. -/
  recovery : Bool
deriving DecidableEq, Repr

/-- The settings where nothing is said. -/
def Settings.default : Settings := ⟨.utf8, true⟩

/-- Why settings cannot be had. -/
inductive SettingsError where
  | unknownCharset (name : String)
  | invalidBoolean (key value : String) (line : Nat)
  | malformedLine (line : Nat) (text : String)
  | unreadable (path reason : String)
deriving DecidableEq, Repr

/-- The error in words. -/
def SettingsError.message : SettingsError → String
  | unknownCharset name => s!"Unsupported charset '{name}'"
  | invalidBoolean key value line =>
    s!"Invalid value '{value}' for {key} at line {line}: expected true or false"
  | malformedLine line text =>
    s!"Malformed property at line {line}: '{text}'"
  | unreadable path reason =>
    s!"Cannot read configuration file {path}: {reason}"

/-- The character set of a name. -/
def Charset.ofName (name : String) : Except SettingsError Charset :=
  match Charset.ofName? name with
  | some charset => .ok charset
  | none => .error (.unknownCharset (String.ofList (trim name.toList)))

namespace Settings

/-- The key that selects the character set of the sources. -/
def charsetKey : String := "sonar.sourceEncoding"

/-- The key that turns recovery on and off. -/
def recoveryKey : String := "sonar.cxx.errorRecoveryEnabled"

/-- The truth value of a word, whatever its case. -/
def boolOf? (word : String) : Option Bool :=
  let word := String.ofList (word.toList.map Char.toLower)
  if word == "true" then some true
  else if word == "false" then some false
  else none

/-- The lines of a text, without the line feeds between them. -/
def linesOnto (done : Array (List Char)) (line : List Char) :
    List Char → Array (List Char)
  | [] => done.push line.reverse
  | c :: cs =>
    if c == '\n' then linesOnto (done.push line.reverse) [] cs
    else linesOnto done (c :: line) cs

/-- Whether a line, without the whitespace around it, says something. -/
def isProperty : List Char → Bool
  | [] => false
  | c :: _ => c != '#' && c != '!'

/-- Key and value of a line, if a separator stands between them. -/
def keyValue? (line : List Char) : Option (String × String) :=
  match line.span fun c => !(c == '=' || c == ':') with
  | (_, []) => none
  | (key, _ :: value) =>
    some (String.ofList (trim key), String.ofList (trim value))

/-- The settings with one property set, that of the given line. -/
def set (s : Settings) (line : Nat) (key value : String) :
    Except SettingsError Settings :=
  if key == charsetKey then do
    return { s with charset := ← Charset.ofName value }
  else if key == recoveryKey then
    match boolOf? value with
    | some recovery => .ok { s with recovery := recovery }
    | none => .error (.invalidBoolean key value line)
  else .ok s

/-- The settings after one line. -/
def readLine (s : Settings) (number : Nat) (line : List Char) :
    Except SettingsError Settings :=
  let line := trim line
  if isProperty line then
    match keyValue? line with
    | some (key, value) => s.set number key value
    | none => .error (.malformedLine number (String.ofList line))
  else .ok s

/-- The settings after some lines, the first of which has the given
number. -/
def readLines (s : Settings) (number : Nat) :
    List (List Char) → Except SettingsError Settings
  | [] => .ok s
  | line :: lines =>
    match s.readLine number line with
    | .ok s => readLines s (number + 1) lines
    | .error e => .error e

/-- The settings that a properties text makes out of the default
ones. -/
def ofProperties (text : List Char) : Except SettingsError Settings :=
  readLines .default 1 (linesOnto #[] [] text).toList

end Settings

end FrontEnd
