/-
Names in expressions: qualified names, template-ids, destructors and the
functions of operators.
-/
import FrontEnd.Grammar.Lookahead

namespace FrontEnd.Grammar

/-- What stands behind the keyword `operator` in an expression. -/
def operatorName : Parser Unit := do
  advance
  let t ← peek
  let next ← peekAt 1
  if (t.isPunct "(" && next.isPunct ")")
      || (t.isPunct "[" && next.isPunct "]") then
    advance
    advance
  else if t.isPunct "," || t.kind == .operator then advance
  else if t.isString then
    advance
    expectName
  else if t.kind == .keyword || t.isName then
    -- an allocation function, or the type of a conversion
    advance
    skipWhile fun t => t.isOperator "*" || t.isOperator "&"
  else failExpected "operator after 'operator'"

/-- Reads template arguments where they can only be such, and says
whether the name goes on behind them. -/
def nameTail : Parser Bool := do
  if (← check (·.isOperator "<")) && (← ahead (opensArguments false)) then
    skipTemplateArguments
  accept (·.isOperator "::")

/-- A round of a qualified name, read up to and through a `::`. -/
def nameRound : Parser (Round Unit Unit) := do
  let t ← peek
  if t.isKeyword "template" then
    advance
    return .again ()
  else
    if t.isName then advance
    else if t.isKeyword "operator" then operatorName
    else if t.isSpelled "~" then
      advance
      expectName
    else failExpected "identifier"
    if ← nameTail then return .again () else return .done ()

/-- A name, possibly qualified, with the template arguments in it. -/
def idExpression : Parser Node := do
  let m ← mark
  let _ ← accept (·.isOperator "::")
  loop (fun _ => nameRound) ()
  finish .idExpression m []

end FrontEnd.Grammar
