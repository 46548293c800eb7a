/-
Grammar rules as functions of the state. A rule reads tokens and yields
a value or a syntax error; either way the state tells how far it got.

The only loop is `loop`. It goes on as long as each round reads a token
that is there, which bounds it by the tokens; a round that reads none is
an error, so that no rule can hang.
-/
import FrontEnd.Grammar.State

namespace FrontEnd.Grammar

/-- A rule of the grammar. -/
abbrev Parser := EStateM SyntaxError State

-- ====================================================== single tokens

/-- The next token. -/
def peek : Parser Token := fun s => .ok s.peek s

/-- The `n`-th token after the next one. -/
def peekAt (n : Nat) : Parser Token := fun s => .ok (tokenAt n s.rest) s

/-- The answer to a question about all the tokens ahead. -/
def ahead (question : List Token → Bool) : Parser Bool :=
  fun s => .ok (question s.rest) s

/-- The place of the next token. -/
def mark : Parser Mark := fun s => .ok s.mark s

/-- How many groups are open. -/
def openGroups : Parser Nat := fun s => .ok s.depth s

/-- Reads the next token. -/
def advance : Parser Unit := fun s => .ok () s.advance

/-- The answer to a question about the next token. -/
def check (question : Token → Bool) : Parser Bool :=
  fun s => .ok (question s.peek) s

/-- Reads the next token if it is as asked for, and says whether. -/
def accept (question : Token → Bool) : Parser Bool := fun s =>
  if question s.peek then .ok true s.advance else .ok false s

/-- A problem with the next token. -/
def fail {α : Type} (problem : SyntaxProblem) : Parser α :=
  fun s => .error ⟨problem, s.peek⟩ s

/-- Something else had to come. -/
def failExpected {α : Type} (wanted : String) : Parser α :=
  fail (.expected wanted)

/-- Reads the next token, which has to be as asked for. -/
def expect (question : Token → Bool) (wanted : String) :
    Parser Unit := fun s =>
  if question s.peek then .ok () s.advance
  else .error ⟨.expected wanted, s.peek⟩ s

/-- Reads a bracket or separator that has to come. -/
def expectPunct (value context : String) : Parser Unit :=
  expect (·.isPunct value) s!"'{value}' {context}"

/-- Reads an operator that has to come. -/
def expectOperator (operator context : String) : Parser Unit :=
  expect (·.isOperator operator) s!"'{operator}' {context}"

/-- Reads a name that has to come. -/
def expectName : Parser Unit :=
  expect Token.isName "identifier"

/-- A node of the tokens read since the mark. -/
def finish (kind : NodeKind) (m : Mark) (children : List Node) :
    Parser Node :=
  fun s => .ok (s.node kind m children) s

-- ============================================================== loops

/-- What a round of a loop comes to. -/
inductive Round (α β : Type) where
  | again (a : α)
  | done (b : β)

/-- Rounds of a loop over at most `bound` tokens altogether. -/
def loopWithin {α β : Type} (bound : Nat)
    (round : α → Parser (Round α β)) (a : α) (s : State) :
    EStateM.Result SyntaxError State β :=
  match round a s with
  | .error e s' => .error e s'
  | .ok (.done b) s' => .ok b s'
  | .ok (.again a) s' =>
    if s.position < s'.position ∧ s'.position ≤ bound then
      loopWithin bound round a s'
    else .error ⟨.unexpected, s'.peek⟩ s'
termination_by bound - s.position

/-- Repeats a round until it is done. -/
def loop {α β : Type} (round : α → Parser (Round α β)) (a : α) :
    Parser β :=
  fun s => loopWithin s.size round a s

/-- Reads tokens as long as they are as asked for. -/
def skipWhile (question : Token → Bool) : Parser Unit :=
  loop (fun _ => do
    if ← accept question then return .again () else return .done ()) ()

/-- Items with commas between them: at least one, and another one behind
each comma. -/
def commaSeparated {α : Type} (item : Parser α) : Parser (List α) :=
  loop (fun items => do
    let items := (← item) :: items
    if ← accept (·.isPunct ",") then return .again items
    else return .done items.reverse) []

end FrontEnd.Grammar
