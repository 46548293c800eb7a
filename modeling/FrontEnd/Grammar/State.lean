/-
The state in which a grammar rule reads tokens.

Directives may stand anywhere among the tokens and no rule looks at
them: every question about the tokens ahead passes over them, and
reading a token reads the directives in front of it as well. The token
that marks the end of the text is never read, and behind the last token
there is another such mark without end.
-/
import FrontEnd.Diagnostic
import FrontEnd.Tree.Node

namespace FrontEnd

/-- Where reading stands with respect to errors. -/
inductive Phase where
  | normal
  /-- In a run of bad input, until some item of a sequence is read. -/
  | recovering
  /-- Given up at an error. -/
  | failed
deriving DecidableEq, Repr, Inhabited

/-- The phase as listings show it. -/
def Phase.label : Phase → String
  | normal => "Normal"
  | recovering => "Recovering"
  | failed => "Failed"

/-- The place of a token that a node can begin with. -/
structure Mark where
  index : Nat
  location : Location
deriving DecidableEq, Repr

namespace Grammar

-- ================================================= looking at tokens

/-- The first token of the list that is no directive, with its index
and what follows; `index` is that of the list's first token. -/
def significant (index : Nat) : List Token → Nat × List Token
  | [] => (index, [])
  | t :: ts =>
    if t.isDirective then significant (index + 1) ts else (index, t :: ts)

/-- The `n`-th token of the list that is no directive. -/
def tokenAt (n : Nat) : List Token → Token
  | [] => .endOfInput
  | t :: ts =>
    if t.isDirective then tokenAt n ts
    else match n with
      | 0 => t
      | n + 1 => tokenAt n ts

/-- The list behind its first `n` tokens that are no directives. -/
def tokensFrom (n : Nat) : List Token → List Token
  | [] => []
  | t :: ts =>
    match n with
    | 0 => t :: ts
    | m + 1 => tokensFrom (if t.isDirective then m + 1 else m) ts

/-- How many groups are open behind a token, given how many are open in
front of it. -/
def depthAfter (t : Token) (depth : Nat) : Nat :=
  if t.opens then depth + 1
  else if t.closes then depth - 1
  else depth

-- ========================================================== the state

/-- What is left to read, and what is known about what was read. -/
structure State where
  /-- The tokens to come. -/
  rest : List Token
  /-- How many tokens were read. -/
  position : Nat
  /-- How many tokens there are, read or not. -/
  size : Nat
  /-- How many groups are open. -/
  depth : Nat
  phase : Phase
  /-- Whether bad input was ever skipped. -/
  recovered : Bool
  errors : Array SyntaxError

namespace State

/-- Before the first token. -/
def start (tokens : List Token) : State :=
  { rest := tokens, position := 0, size := tokens.length, depth := 0
    phase := .normal, recovered := false, errors := #[] }

/-- The next token. -/
def peek (s : State) : Token :=
  (significant s.position s.rest).2.headD .endOfInput

/-- The place of the next token. -/
def mark (s : State) : Mark :=
  let (index, tokens) := significant s.position s.rest
  ⟨index, (tokens.headD .endOfInput).location⟩

/-- Reads the next token, unless it marks the end. -/
def advance (s : State) : State :=
  match significant s.position s.rest with
  | (_, []) => s
  | (index, t :: rest) =>
    if t.isEnd then s
    else { s with
      rest := rest, position := index + 1, depth := depthAfter t s.depth }

/-- A node of the tokens read since the mark. -/
def node (s : State) (kind : NodeKind) (m : Mark)
    (children : List Node) : Node :=
  { kind := kind, first := m.index, stop := max s.position m.index
    location := m.location, recovered := s.recovered
    children := children }

end State

end Grammar

end FrontEnd
