/-
Statements. What reads like a declaration is one, and an `else if`
belongs to the ladder of its `if`: the branches of a ladder are children
of one node, a final `else` coming last.
-/
import FrontEnd.Grammar.Declaration

namespace FrontEnd.Grammar

-- ========================================================== conditions

/-- The operators between a type and a declared name. -/
def markerOperators : List String := ["::", "*", "&", "&&", "..."]

/-- A round of a declaration in a condition. It stops in front of the
token that ends the condition. -/
def conditionRound (g : Inner) (parts : List Node) :
    Parser (Round (List Node) (List Node)) := do
  let t ← peek
  match t.kind with
  | .punctuation =>
    if t.value == ";" || t.value == ")" then return .done parts.reverse
    else if t.value == "(" || t.value == "[" then
      skipGroup "in declaration"
      return .again parts
    else if t.value == "\x7b" then
      let list ← g.parse .initializerList
      return .again (list :: parts)
    else if t.value == "," then
      advance
      return .again parts
    else fail .unexpected
  | .operator =>
    if t.isOperator ":" then return .done parts.reverse
    else if t.isOperator "=" then
      advance
      let value ← initializer g
      return .again (value :: parts)
    else if t.isOperator "<" then
      skipTemplateArguments
      return .again parts
    else if isOneOf markerOperators t then
      advance
      return .again parts
    else fail .unexpected
  | .identifier =>
    advance
    return .again parts
  | .keyword =>
    if Word.isStatement t.value then fail .unexpected
    else
      let next ← peekAt 1
      advance
      if t.value == "decltype" && next.isPunct "(" then
        skipGroup "after decltype"
      return .again parts
  | _ => fail .unexpected

/-- An expression, or a declaration without its end, as it stands in
parentheses. -/
def condition (g : Inner) : Parser Node := do
  let m ← mark
  if ← ahead opensDeclaration then
    let parts ← loop (conditionRound g) []
    finish .condition m parts
  else
    let value ← expression g
    finish .condition m [value]

/-- A condition, possibly with another one and a semicolon in front of
it. -/
def conditionClause (g : Inner) : Parser (List Node) := do
  let first ← condition g
  if ← accept (·.isPunct ";") then
    let second ← condition g
    return [first, second]
  else return [first]

-- =========================================================== selection

/-- An `if` with its statement and without any `else`. -/
def branch (g : Inner) : Parser (List Node) := do
  advance
  let negated := (← check (·.isOperator "!"))
    && (← peekAt 1).isKeyword "consteval"
  if negated || (← check (·.isKeyword "consteval")) then
    let _ ← accept (·.isOperator "!")
    advance
    let body ← block g
    return [body]
  else
    let _ ← accept (·.isKeyword "constexpr")
    expectPunct "(" "after 'if'"
    let conditions ← conditionClause g
    expectPunct ")" "after if condition"
    let body ← g.parse .statement
    return conditions ++ [body]

/-- The branches behind the first of a ladder, last one first. -/
def otherBranches (g : Inner) : Parser (List Node) :=
  loop (fun done => do
    if ← accept (·.isKeyword "else") then
      if ← check (·.isKeyword "if") then
        let m ← mark
        let parts ← branch g
        return .again ((← finish .ifStatement m parts) :: done)
      else
        let last ← g.parse .statement
        return .done (last :: done)
    else return .done done) []

/-- A ladder of branches. -/
def ifStatement (g : Inner) : Parser Node := do
  let m ← mark
  let first ← branch g
  let others ← otherBranches g
  finish .ifStatement m (first ++ others.reverse)

/-- A `switch` with its statement. -/
def switchStatement (g : Inner) : Parser Node := do
  let m ← mark
  advance
  expectPunct "(" "after 'switch'"
  let conditions ← conditionClause g
  expectPunct ")" "after switch condition"
  let body ← g.parse .statement
  finish .switchStatement m (conditions ++ [body])

-- =========================================================== iteration

/-- A `while` loop. -/
def whileStatement (g : Inner) : Parser Node := do
  let m ← mark
  advance
  expectPunct "(" "after 'while'"
  let test ← condition g
  expectPunct ")" "after while condition"
  let body ← g.parse .statement
  finish .whileStatement m [test, body]

/-- A `do` loop. -/
def doStatement (g : Inner) : Parser Node := do
  let m ← mark
  advance
  let body ← g.parse .statement
  expect (·.isKeyword "while") "'while' after do body"
  expectPunct "(" "after 'while'"
  let test ← expression g
  expectPunct ")" "after do-while condition"
  expectPunct ";" "after do-while"
  finish .doStatement m [body, test]

/-- A loop over a range, from the colon on, behind its clauses. -/
def rangeLoop (g : Inner) (m : Mark) (clauses : List Node)
    (declared : Node) : Parser Node := do
  advance
  let range ← initializer g
  expectPunct ")" "after range"
  let body ← g.parse .statement
  finish .rangeForStatement m
    (clauses ++ [{ declared with kind := .forRangeDeclaration }, range,
      body])

/-- The rest of a `for` loop from behind its second semicolon. -/
def forTail (g : Inner) (m : Mark) (clauses : List Node) :
    Parser Node := do
  let steps ←
    if ← check (·.isPunct ")") then pure []
    else pure [← expression g]
  expectPunct ")" "after for clauses"
  let body ← g.parse .statement
  finish .forStatement m (clauses ++ steps ++ [body])

/-- The rest of a `for` loop from behind its first semicolon. The second
clause may turn out to be the declaration of a loop over a range. -/
def forCondition (g : Inner) (m : Mark) (clauses : List Node) :
    Parser Node := do
  if ← check (·.isPunct ";") then
    expectPunct ";" "after for condition"
    forTail g m clauses
  else
    let clause ← condition g
    if ← check (·.isOperator ":") then rangeLoop g m clauses clause
    else
      expectPunct ";" "after for condition"
      forTail g m (clauses ++ [clause])

/-- A `for` loop of either kind. -/
def forStatement (g : Inner) : Parser Node := do
  let m ← mark
  advance
  let _ ← accept (·.isKeyword "co_await")
  expectPunct "(" "after 'for'"
  if ← check (·.isPunct ";") then
    expectPunct ";" "after for initializer"
    forCondition g m []
  else
    let clause ← condition g
    if ← check (·.isOperator ":") then rangeLoop g m [] clause
    else
      expectPunct ";" "after for initializer"
      forCondition g m [clause]

-- =============================================================== jumps

/-- A jump that is a keyword alone. -/
def plainJump (kind : NodeKind) (context : String) : Parser Node := do
  let m ← mark
  advance
  expectPunct ";" context
  finish kind m []

/-- A `goto` with its label. -/
def gotoStatement : Parser Node := do
  let m ← mark
  advance
  expectName
  expectPunct ";" "after 'goto'"
  finish .gotoStatement m []

/-- A `return` with its value, if it has one. -/
def returnStatement (g : Inner) : Parser Node := do
  let m ← mark
  advance
  let values ←
    if ← check (·.isPunct ";") then pure []
    else pure [← initializer g]
  expectPunct ";" "after return value"
  finish .returnStatement m values

-- ============================================================== labels

/-- The label of a case. -/
def caseLabel (g : Inner) : Parser Node := do
  let m ← mark
  advance
  let value ← g.parse .conditional
  expectOperator ":" "after case value"
  finish .caseLabel m [value]

/-- The label of the default case. -/
def defaultLabel : Parser Node := do
  let m ← mark
  advance
  expectOperator ":" "after 'default'"
  finish .defaultLabel m []

/-- A label and the statement that it stands at. At the end of a block
it stands at none. -/
def labeledStatement (g : Inner) : Parser Node := do
  let m ← mark
  advance
  advance
  if ← check (·.isPunct "\x7d") then finish .labeledStatement m []
  else
    let statement ← g.parse .statement
    finish .labeledStatement m [statement]

-- ========================================================== statements

/-- A declaration in a block, or an expression with its semicolon. -/
def simpleStatement (g : Inner) : Parser Node := do
  if ← ahead opensDeclaration then simpleDeclaration g
  else
    let m ← mark
    let value ← expression g
    expectPunct ";" "after expression"
    finish .expressionStatement m [value]

/-- A statement that begins with a keyword. -/
def keywordStatement (g : Inner) (word : String) : Parser Node :=
  if word == "if" then ifStatement g
  else if word == "switch" then switchStatement g
  else if word == "while" then whileStatement g
  else if word == "do" then doStatement g
  else if word == "for" then forStatement g
  else if word == "return" || word == "co_return" then returnStatement g
  else if word == "break" then plainJump .breakStatement "after 'break'"
  else if word == "continue" then
    plainJump .continueStatement "after 'continue'"
  else if word == "goto" then gotoStatement
  else if word == "case" then caseLabel g
  else if word == "default" then defaultLabel
  else if word == "try" then tryBlock g
  else if word == "asm" then asmDeclaration
  else if Word.startsDeclaration word then g.parse .declaration
  else simpleStatement g

/-- Any statement. -/
def statement (g : Inner) : Parser Node := do
  let t ← peek
  if t.isPunct "\x7b" then block g
  else if t.isPunct ";" then
    let m ← mark
    advance
    finish .emptyStatement m []
  else if t.kind == .keyword then keywordStatement g t.value
  else if t.isName && (← peekAt 1).isSpelled ":" then labeledStatement g
  else simpleStatement g

end FrontEnd.Grammar
