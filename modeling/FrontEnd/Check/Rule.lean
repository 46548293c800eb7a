/-
Rules that a file is checked against, and what they find. A rule is
asked once in front of a file, at the nodes of the kinds that it lists,
and once behind the file; a kind that is listed twice has it asked twice
at each node. All that a rule remembers is how often it was asked at a
node, in this file and in those before.
-/
import FrontEnd.Analysis

namespace FrontEnd

/-- Something found in a file. Without a line it is about the file as a
whole. -/
structure Violation where
  line : Option Nat
  rule : String
  message : String
deriving DecidableEq, Repr

/-- The finding after the name of its rule. -/
def Violation.render (v : Violation) : String :=
  s!"[{v.rule}] {v.message}"

/-- What a file can be checked for. -/
inductive Rule where
  /-- Repeats the syntax errors of a file. -/
  | parsingError
  /-- Bytes that are not valid in the character set. -/
  | fileEncoding
  /-- Uses of `goto`. -/
  | gotoStatement
  /-- Numbers the nodes of some kinds, and tells of every call. -/
  | tally (key : String) (kinds : List NodeKind)
deriving DecidableEq, Repr

namespace Rule

/-- The name that violations of the rule go by. -/
def key : Rule → String
  | parsingError => "ParsingError"
  | fileEncoding => "FileEncoding"
  | gotoStatement => "GotoStatement"
  | tally key _ => key

/-- The kinds of nodes at which the rule is asked. -/
def kinds : Rule → List NodeKind
  | gotoStatement => [.gotoStatement]
  | tally _ kinds => kinds
  | _ => []

/-- The rules that every file is checked against. -/
def builtIn : List Rule := [parsingError, fileEncoding, gotoStatement]

/-- The built-in rule of a name. -/
def builtIn? (key : String) : Option Rule :=
  builtIn.find? (·.key == key)

/-- A finding of the rule about one line. -/
def onLine (r : Rule) (line : Nat) (message : String) : Violation :=
  ⟨some line, r.key, message⟩

/-- A finding of the rule about the file as a whole. -/
def onFile (r : Rule) (message : String) : Violation :=
  ⟨none, r.key, message⟩

/-- What the rule finds in front of a file. -/
def enter (r : Rule) (a : Analysis) : List Violation :=
  match r with
  | parsingError =>
    (a.diagnostics.filter (!·.isLexical)).map fun d =>
      r.onLine d.location.line d.message
  | fileEncoding =>
    if a.source.decodeError then
      [r.onFile s!"Not all characters of the file can be encoded with the predefined charset {a.source.charset.name}."]
    else []
  | gotoStatement => []
  | tally _ _ => [r.onFile "visit"]

/-- What the rule finds at a node, the `count`-th at which it was
asked. -/
def visit (r : Rule) (count : Nat) (n : Node) : List Violation :=
  match r with
  | gotoStatement =>
    [r.onLine n.location.line "Remove this use of \"goto\"."]
  | tally _ _ => [r.onLine n.location.line s!"{count} {n.kind.name}"]
  | _ => []

/-- What the rule finds behind a file, having been asked at `count`
nodes. -/
def leave (r : Rule) (count : Nat) : List Violation :=
  match r with
  | tally _ _ => [r.onFile s!"leave {count}"]
  | _ => []

end Rule

end FrontEnd
