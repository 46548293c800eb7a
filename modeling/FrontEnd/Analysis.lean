/-
Everything known about one source file after splitting and reading it.
The diagnostics are in reading order; where a lexical and a syntax error
stand at the same place, the lexical one comes first.
-/
import FrontEnd.Grammar.Unit
import FrontEnd.Settings
import FrontEnd.Source
import FrontEnd.Token.Stream

namespace FrontEnd

/-- A source file with its pieces, its tree and its errors. -/
structure Analysis where
  source : SourceFile
  stream : TokenStream
  /-- The unit, in part where reading was given up. -/
  tree : Node
  diagnostics : List Diagnostic
  phase : Phase

namespace Analysis

/-- What the settings say about syntax errors. -/
def policyOf (s : Settings) : Policy :=
  if s.recovery then .tolerant else .strict

/-- Diagnostics in reading order; equal places keep their order. -/
def arrange (diagnostics : List Diagnostic) : List Diagnostic :=
  diagnostics.mergeSort fun a b => a.location.le b.location

/-- Splits and reads a source file. -/
def ofSource (policy : Policy) (source : SourceFile) : Analysis :=
  let stream := TokenStream.ofText source.text
  let outcome := ParseOutcome.ofTokens policy stream.tokens
  { source := source
    stream := stream
    tree := outcome.tree
    diagnostics := arrange
      (stream.errors.map .lexical ++ outcome.errors.map .syntactic)
    phase := outcome.phase }

/-- Whether anything is wrong with the file. -/
def hasErrors (a : Analysis) : Bool :=
  !a.diagnostics.isEmpty

end Analysis

end FrontEnd
