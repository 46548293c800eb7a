/-
The report on one file: its tokens and its tree if they are asked for,
its lexical errors, and what the built-in rules find. Syntax errors are
reported as what the rule for them finds.
-/
import FrontEnd.Check.Registry
import FrontEnd.Text.Escape

namespace FrontEnd

/-- What a report shows, and how. -/
structure ReportOptions where
  tokens : Bool
  tree : Bool
  color : Bool
deriving DecidableEq, Repr

/-- The attributes that a terminal shows a label with. -/
structure Highlight where
  on : String
  off : String

namespace Report

/-- Bright yellow. -/
def caution : Highlight := ⟨"\x1b[38;5;11m", "\x1b[39m"⟩

/-- Bright red and bold. -/
def alarm : Highlight := ⟨"\x1b[38;5;9m\x1b[1m", "\x1b[0m"⟩

/-- A name in square brackets, highlighted if there are colours. -/
def label (color : Bool) (h : Highlight) (name : String) : String :=
  if color then h.on ++ "[" ++ name ++ "]" ++ h.off
  else "[" ++ name ++ "]"

/-- A path with the line in it, if there is one. -/
def pathLine (path : String) : Option Nat → String
  | some line => s!"{path}:{line}:"
  | none => s!"{path}:"

/-- Place, class and quoted text of a token. -/
def tokenLine (t : Token) : String :=
  s!"{t.location.render} {t.kind.label} {Text.quoted t.value}\n"

/-- Place, label and words of a diagnostic. -/
def diagnosticLine (color : Bool) (path : String) (d : Diagnostic) :
    String :=
  s!"{pathLine path d.location.line} {label color caution d.label} {d.message}\n"

/-- Place, rule and words of a finding. -/
def violationLine (color : Bool) (path : String) (v : Violation) :
    String :=
  s!"{pathLine path v.line} {label color alarm v.rule} {v.message}\n"

/-- The report on an analysed file. -/
def render (o : ReportOptions) (a : Analysis) : String :=
  let path := a.source.path
  let tokens := if o.tokens then a.stream.tokens.map tokenLine else []
  let tree := if o.tree then [a.tree.pretty] else []
  let diagnostics := (a.diagnostics.filter (·.isLexical)).map
    (diagnosticLine o.color path)
  let violations := a.violations.map (violationLine o.color path)
  String.join (tokens ++ tree ++ diagnostics ++ violations)

/-- The report on a file read as bytes. -/
def ofBytes (o : ReportOptions) (s : Settings) (path : String)
    (bytes : List UInt8) : String :=
  render o (.ofSource (Analysis.policyOf s)
    (.ofBytes path bytes s.charset))

end Report

end FrontEnd
