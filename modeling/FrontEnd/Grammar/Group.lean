/-
Stretches of tokens that are read without a look at their grammar:
bracketed groups, template argument lists, and everything up to a
semicolon.
-/
import FrontEnd.Grammar.Parser

namespace FrontEnd.Grammar

/-- What closes a group that this token opens. -/
def closerOf (opener : Token) : String :=
  if opener.value == "(" then ")"
  else if opener.value == "[" then "]"
  else "\x7d"

/-- Reads a group from its opening bracket through the bracket that
brings the number of open groups back to what it was. A token that opens
no group is a group by itself. -/
def skipGroup (context : String) : Parser Unit := do
  let opener ← peek
  let outer ← openGroups
  advance
  loop (fun _ => do
    if (← openGroups) ≤ outer then return .done ()
    else if ← check Token.isEnd then
      failExpected s!"'{closerOf opener}' {context}"
    else
      advance
      return .again ()) ()

/-- How many angle brackets are open behind a token. The operator `>>`
closes two. -/
def anglesAfter (t : Token) (angles : Nat) : Nat :=
  if t.isSpelled "<" then angles + 1
  else if t.isSpelled ">" then angles - 1
  else if t.isSpelled ">>" then angles - 2
  else angles

/-- Reads template arguments, from the `<` that the next token is. -/
def skipTemplateArguments : Parser Unit := do
  advance
  loop (fun angles => do
    let t ← peek
    if angles = 0 then return .done ()
    else if t.isPunct "(" || t.isPunct "[" then
      skipGroup "in template arguments"
      return .again angles
    else if t.isEnd || t.isPunct ";" || t.opens || t.closes then
      failExpected "'>' after template arguments"
    else
      advance
      return .again (anglesAfter t angles)) 1

/-- Reads through the next semicolon that stands in no group. -/
def skipToSemicolon (context : String) : Parser Unit :=
  loop (fun _ => do
    let t ← peek
    if t.isPunct ";" then
      advance
      return .done ()
    else if t.opens then
      skipGroup context
      return .again ()
    else if t.isEnd || t.closes then failExpected s!"';' {context}"
    else
      advance
      return .again ()) ()

/-- Reads the attributes that stand here, each in double brackets. -/
def skipAttributes : Parser Unit :=
  loop (fun _ => do
    if (← check (·.isPunct "[")) && (← peekAt 1).isPunct "[" then
      skipGroup "after attribute"
      return .again ()
    else return .done ()) ()

end FrontEnd.Grammar
