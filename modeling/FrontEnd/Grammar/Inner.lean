/-
What a rule of the grammar can build on. Rules that contain one another
do so through `Inner.parse`, which reads a construct one level of
nesting deeper; how many levels are left is part of it, so that the
rules of one level need not know those of the next.
-/
import FrontEnd.Grammar.Group
import FrontEnd.Grammar.Sequence

namespace FrontEnd.Grammar

/-- The constructs that nest. -/
inductive Goal where
  | declaration
  | statement
  /-- An expression without a comma operator. -/
  | assignment
  /-- An expression without assignments outside of its branches. -/
  | conditional
  /-- The operand of a unary operator or a cast. -/
  | operand
  /-- Initializers in braces. -/
  | initializerList
deriving DecidableEq, Repr

/-- The grammar one level deeper. -/
structure Inner where
  policy : Policy
  /-- How many levels of nesting are left below this one. -/
  room : Nat
  parse : Goal → Parser Node

-- ============================================================= blocks

/-- Statements in braces. -/
def block (g : Inner) : Parser Node := do
  let m ← mark
  expectPunct "\x7b" "to open block"
  let statements ← sequence g.policy "\x7d" (g.parse .statement)
  expectPunct "\x7d" "after block"
  finish .compoundStatement m statements

/-- Exception handlers: any number of them, last one first. -/
def handlers (g : Inner) : Parser (List Node) :=
  loop (fun done => do
    if ← check (·.isKeyword "catch") then
      let m ← mark
      advance
      if ← check (·.isPunct "(") then
        skipGroup "after exception declaration"
        let body ← block g
        return .again ((← finish .handler m [body]) :: done)
      else failExpected "'(' after 'catch'"
    else return .done done) []

/-- A `try` block with its handlers. -/
def tryBlock (g : Inner) : Parser Node := do
  let m ← mark
  advance
  let body ← block g
  let handlers ← handlers g
  if handlers.isEmpty then failExpected "'catch' after try block"
  else finish .tryBlock m (body :: handlers.reverse)

end FrontEnd.Grammar
