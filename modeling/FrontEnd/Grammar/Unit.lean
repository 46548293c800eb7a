/-
The grammar as a whole, and the reading of a token list as a unit: the
declarations of one file. The levels of nesting are counted down, and
what would nest below the last one is an error; that is also why reading
ends.
-/
import FrontEnd.Grammar.Statement

namespace FrontEnd

namespace Grammar

/-- The rule of a construct. -/
def rule (g : Inner) : Goal → Parser Node
  | .declaration => declaration g
  | .statement => statement g
  | .assignment => rightGrouped g true
  | .conditional => rightGrouped g false
  | .operand => castExpression g
  | .initializerList => initializerList g

/-- Reads a construct with a number of levels of nesting to spare. -/
def parse (policy : Policy) : Nat → Goal → Parser Node
  | 0, _ => fail .nestingTooDeep
  | room + 1, goal => rule ⟨policy, room, parse policy room⟩ goal

/-- The levels of nesting that a file can have. -/
def maxNesting : Nat := 256

end Grammar

/-- What reading a token list comes to. -/
structure ParseOutcome where
  /-- The unit, with what was read until reading ended. -/
  tree : Node
  errors : List SyntaxError
  phase : Phase

open Grammar in
/-- Reads a token list as a unit. -/
def ParseOutcome.ofTokens (policy : Policy) (tokens : List Token) :
    ParseOutcome :=
  let gathered := gather policy none
    (parse policy maxNesting .declaration) tokens.length [] (.start tokens)
  let s := gathered.state
  { tree :=
      { kind := .unit, first := 0, stop := tokens.length
        location := .start, recovered := s.recovered
        children := gathered.items }
    errors := (s.errors ++ gathered.error.toArray).toList
    phase := if gathered.error.isSome then .failed else s.phase }

end FrontEnd
