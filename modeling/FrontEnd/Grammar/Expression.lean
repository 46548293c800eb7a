/-
Expressions. Operators of one level share a node with all their
operands, `a + b - c` having three, and so do chains of assignments and
of conditionals; a chain is read in a loop, however long it is.

The binary operators form twelve levels. An operand of one level is an
expression of the next tighter one, and those of the tightest are casts
and unary expressions.
-/
import FrontEnd.Grammar.Inner
import FrontEnd.Grammar.Name

namespace FrontEnd.Grammar

-- ========================================================== operators

/-- The levels of binary operators, loosest first. -/
def binaryLevels : List (List String) := [
  ["||"], ["&&"], ["|"], ["^"], ["&"], ["==", "!="],
  ["<", ">", "<=", ">="], ["<=>"], ["<<", ">>"], ["+", "-"],
  ["*", "/", "%"], [".*", "->*"]]

/-- The operators of assignment. -/
def assignmentOperators : List String :=
  ["=", "+=", "-=", "*=", "/=", "%=", "&=", "|=", "^=", "<<=", ">>="]

/-- The operators in front of an operand. -/
def unaryOperators : List String :=
  ["++", "--", "+", "-", "!", "~", "*", "&", "&&"]

/-- Whether the token is one of the operators, in whatever spelling. -/
def isOneOf (operators : List String) (t : Token) : Bool :=
  t.kind == .operator && operators.contains (Word.canonical t.value)

/-- Whether an expression cannot begin with the token. -/
def endsExpression (t : Token) : Bool :=
  match t.kind with
  | .endOfFile => true
  | .punctuation => [";", ")", "]", "\x7d", ","].contains t.value
  | .operator => t.value == ":"
  | _ => false

-- ================================================== whole expressions

/-- An expression, with commas on its top level. -/
def expression (g : Inner) : Parser Node := do
  let m ← mark
  match ← commaSeparated (g.parse .assignment) with
  | [single] => return single
  | operands => finish .binaryExpression m operands

/-- What a variable can be initialized with: initializers in braces, or
an expression without a comma. -/
def initializer (g : Inner) : Parser Node := do
  if ← check (·.isPunct "\x7b") then g.parse .initializerList
  else g.parse .assignment

/-- Initializers in braces, or any expression. -/
def initializerOrExpression (g : Inner) : Parser Node := do
  if ← check (·.isPunct "\x7b") then g.parse .initializerList
  else expression g

/-- An initializer in a list of them, where it may be a pack. -/
def listedInitializer (g : Inner) : Parser Node := do
  let m ← mark
  let item ← initializer g
  if ← accept (·.isOperator "...") then
    finish .postfixExpression m [item]
  else return item

/-- Arguments in parentheses. -/
def arguments (g : Inner) : Parser (List Node) := do
  advance
  let items ←
    if ← check (·.isPunct ")") then pure []
    else commaSeparated (listedInitializer g)
  expectPunct ")" "after arguments"
  return items

/-- A designator in front of an initializer in braces. -/
def designator : Parser Unit := do
  if (← check (·.isOperator ".")) && (← peekAt 1).isName then
    advance
    advance
    if ← check (·.isPunct "\x7b") then return ()
    else expectOperator "=" "after designator"

/-- Initializers in braces. A comma may end the list. -/
def initializerList (g : Inner) : Parser Node := do
  let m ← mark
  expectPunct "\x7b" "to open initializer list"
  let items ← loop (fun items => do
    if ← check (·.isPunct "\x7d") then return .done items
    else
      designator
      let items := (← listedInitializer g) :: items
      if ← accept (·.isPunct ",") then return .again items
      else return .done items) []
  expectPunct "\x7d" "after initializer list"
  finish .bracedInitList m items.reverse

-- ============================================================ lambdas

/-- What may stand between the parameters of a lambda and its body. -/
def lambdaDeclarator : Parser Unit :=
  loop (fun _ => do
    let t ← peek
    if t.isPunct "\x7b" then return .done ()
    else
      if t.isPunct "(" || t.isPunct "[" then
        skipGroup "in lambda declarator"
      else if t.isSpelled "<" then skipTemplateArguments
      else if t.kind == .keyword || t.isName || t.kind == .operator then
        advance
      else failExpected "'\x7b' before lambda body"
      return .again ()) ()

/-- A lambda expression. -/
def lambda (g : Inner) : Parser Node := do
  let m ← mark
  skipGroup "after lambda captures"
  if ← check (·.isOperator "<") then skipTemplateArguments
  if ← check (·.isPunct "(") then skipGroup "after lambda parameters"
  lambdaDeclarator
  let body ← block g
  finish .lambdaExpression m [body]

-- ================================================= primary expressions

/-- A cast by keyword. -/
def namedCast (g : Inner) : Parser Node := do
  let m ← mark
  let t ← peek
  advance
  if ← check (·.isOperator "<") then
    skipTemplateArguments
    expectPunct "(" "after cast type"
    let operand ← expression g
    expectPunct ")" "after cast operand"
    finish .castExpression m [operand]
  else failExpected s!"'<' after '{t.value}'"

/-- The type of an expression, by keyword. -/
def decltypeName : Parser Node := do
  let m ← mark
  advance
  if ← check (·.isPunct "(") then
    skipGroup "after decltype operand"
    if ← accept (·.isOperator "::") then idExpression
    else finish .typeId m []
  else failExpected "'(' after 'decltype'"

/-- A requirement on template arguments. -/
def requiresExpression : Parser Node := do
  let m ← mark
  advance
  if ← check (·.isPunct "(") then skipGroup "after requirement parameters"
  if ← check (·.isPunct "\x7b") then
    skipGroup "after requirements"
    finish .builtinExpression m []
  else failExpected "'\x7b' after 'requires'"

/-- Type keywords in front of an argument. -/
def typeKeywords : Parser Node := do
  let m ← mark
  loop (fun _ => do
    let t ← peek
    if t.kind == .keyword && Word.isType t.value then
      advance
      if t.value == "typename" then
        let name ← idExpression
        return .done (← finish .typeId m [name])
      else return .again ()
    else return .done (← finish .typeId m [])) ()

/-- An expression that begins with a keyword. -/
def keywordPrimary (g : Inner) : Parser Node := do
  let m ← mark
  let word := (← peek).value
  if ["true", "false", "nullptr"].contains word then
    advance
    finish .literal m []
  else if word == "this" then
    advance
    finish .idExpression m []
  else if word == "operator" then idExpression
  else if ["static_cast", "dynamic_cast", "const_cast",
      "reinterpret_cast"].contains word then namedCast g
  else if word == "decltype" then decltypeName
  else if word == "requires" then requiresExpression
  else if Word.isType word then typeKeywords
  else failExpected "expression"

/-- Literals, names, and whatever brackets enclose. -/
def primary (g : Inner) : Parser Node := do
  let m ← mark
  let t ← peek
  match t.kind with
  | .number | .character =>
    advance
    finish .literal m []
  | .string =>
    -- adjacent strings are one literal
    skipWhile Token.isString
    finish .literal m []
  | .identifier => idExpression
  | .operator =>
    if t.value == "::" || t.value == "~" then idExpression
    else if t.value == "..." then
      -- the pack of a fold
      advance
      finish .idExpression m []
    else failExpected "expression"
  | .keyword => keywordPrimary g
  | .punctuation =>
    if t.value == "(" then
      advance
      let inner ← expression g
      expectPunct ")" "after expression"
      finish .parenthesizedExpression m [inner]
    else if t.value == "[" then lambda g
    else if t.value == "\x7b" then g.parse .initializerList
    else failExpected "expression"
  | .directive | .endOfFile => failExpected "expression"

-- ================================================= postfix operators

/-- A member behind a point or an arrow, which is the next token. -/
def member (m : Mark) (object : Node) : Parser Node := do
  let t ← peek
  advance
  let _ ← accept (·.isKeyword "template")
  if ← check fun t =>
      t.isName || t.isOperator "~" || t.isKeyword "operator" then
    let name ← idExpression
    finish .memberAccess m [object, name]
  else failExpected s!"member name after '{t.value}'"

/-- A round of postfix operators on an expression that began at the
mark. -/
def postfixRound (g : Inner) (m : Mark) (object : Node) :
    Parser (Round Node Node) := do
  let t ← peek
  if t.isPunct "(" then
    let items ← arguments g
    return .again (← finish .callExpression m (object :: items))
  else if t.isPunct "[" then
    advance
    let index ← initializerOrExpression g
    expectPunct "]" "after subscript"
    return .again (← finish .subscriptExpression m [object, index])
  else if t.isPunct "\x7b"
      && (object.kind == .idExpression || object.kind == .typeId) then
    let list ← g.parse .initializerList
    return .again (← finish .callExpression m [object, list])
  else if t.isSpelled "." || t.isSpelled "->" then
    return .again (← member m object)
  else if t.isSpelled "++" || t.isSpelled "--" || t.isSpelled "..." then
    advance
    return .again (← finish .postfixExpression m [object])
  else return .done object

/-- The postfix operators on an expression that began at the mark. -/
def postfixOperators (g : Inner) (m : Mark) (object : Node) :
    Parser Node :=
  loop (postfixRound g m) object

/-- A primary expression with its postfix operators. -/
def postfixExpression (g : Inner) : Parser Node := do
  let m ← mark
  postfixOperators g m (← primary g)

-- ==================================================== unary operators

/-- The keywords that are no part of the type behind `new`. -/
def endsNewType : List String := ["new", "delete", "this"]

/-- The type behind `new`. -/
def newType : Parser Unit := do
  loop (fun _ => do
    let t ← peek
    if (t.isName || t.kind == .keyword)
        && !endsNewType.contains t.value then
      advance
      return .again ()
    else if t.isSpelled "::" || t.isSpelled "*" || t.isSpelled "&" then
      advance
      return .again ()
    else if t.isSpelled "<" then
      skipTemplateArguments
      return .again ()
    else return .done ()) ()
  loop (fun _ => do
    if ← check (·.isPunct "[") then
      skipGroup "after array size"
      return .again ()
    else return .done ()) ()

/-- An allocation, from the keyword on. -/
def newExpression (g : Inner) : Parser Node := do
  let m ← mark
  advance
  if ← check (·.isPunct "(") then skipGroup "after placement arguments"
  newType
  let children ←
    if ← check (·.isPunct "(") then arguments g
    else if ← check (·.isPunct "\x7b") then
      pure [← g.parse .initializerList]
    else pure []
  finish .newExpression m children

/-- A deallocation, from the keyword on. -/
def deleteExpression (g : Inner) : Parser Node := do
  let m ← mark
  advance
  if (← check (·.isPunct "[")) && (← peekAt 1).isPunct "]" then
    advance
    advance
  let operand ← g.parse .operand
  finish .deleteExpression m [operand]

/-- A unary operator, which is the next token, and its operand. -/
def unary (g : Inner) : Parser Node := do
  let m ← mark
  advance
  let operand ← g.parse .operand
  finish .unaryExpression m [operand]

/-- A cast by a type in parentheses. -/
def parenthesizedCast (g : Inner) : Parser Node := do
  let m ← mark
  skipGroup "after cast type"
  let operand ←
    if ← check (·.isPunct "\x7b") then g.parse .initializerList
    else g.parse .operand
  finish .castExpression m [operand]

/-- The size of a type, a pack or an expression. -/
def sizeofExpression (g : Inner) : Parser Node := do
  let m ← mark
  advance
  let isPack ← accept (·.isOperator "...")
  if isPack || (← check (·.isPunct "(")) then
    skipGroup "after sizeof operand"
    finish .builtinExpression m []
  else
    let operand ← g.parse .operand
    finish .unaryExpression m [operand]

/-- A keyword with an operand in parentheses. -/
def keywordCall (g : Inner) : Parser Node := do
  let m ← mark
  let t ← peek
  advance
  if ← check (·.isPunct "(") then
    skipGroup "after operand"
    postfixOperators g m (← finish .builtinExpression m [])
  else failExpected s!"'(' after '{t.value}'"

/-- Unary expressions and casts. -/
def castExpression (g : Inner) : Parser Node := do
  let t ← peek
  match t.kind with
  | .punctuation =>
    if t.value == "(" && (← ahead opensCast) then parenthesizedCast g
    else postfixExpression g
  | .operator =>
    if isOneOf unaryOperators t then unary g
    else if t.value == "::" then
      let next ← peekAt 1
      if next.isKeyword "new" then
        advance
        newExpression g
      else if next.isKeyword "delete" then
        advance
        deleteExpression g
      else postfixExpression g
    else postfixExpression g
  | .keyword =>
    if t.value == "sizeof" then sizeofExpression g
    else if ["alignof", "typeid", "noexcept"].contains t.value then
      keywordCall g
    else if t.value == "new" then newExpression g
    else if t.value == "delete" then deleteExpression g
    else if t.value == "co_await" then unary g
    else postfixExpression g
  | _ => postfixExpression g

-- =================================================== binary operators

/-- Operands with operators of the first of the levels between them,
each an expression of the other levels. -/
def binary (g : Inner) : List (List String) → Parser Node
  | [] => castExpression g
  | level :: tighter => do
    let m ← mark
    let first ← binary g tighter
    let others ← loop (fun others => do
      if ← accept (isOneOf level) then
        return .again ((← binary g tighter) :: others)
      else return .done others) []
    if others.isEmpty then return first
    else finish .binaryExpression m (first :: others.reverse)

-- ==================================== operators that group to the right

/-- An operator whose last operand is still to come. -/
inductive Waiting where
  | throws (m : Mark)
  | yields (m : Mark)
  /-- The targets of a chain of assignments, last first. -/
  | assigns (m : Mark) (targets : List Node)
  /-- Conditions and values of a chain of conditionals, last first. -/
  | chooses (m : Mark) (branches : List Node)

/-- The node of an operator whose last operand is there. -/
def Waiting.close (operand : Node) : Waiting → Parser Node
  | .throws m => finish .throwExpression m [operand]
  | .yields m => finish .unaryExpression m [operand]
  | .assigns m targets =>
    finish .assignmentExpression m (operand :: targets).reverse
  | .chooses m branches =>
    finish .conditionalExpression m (operand :: branches).reverse

/-- Closes the waiting operators, innermost first. -/
def closeAll (operand : Node) : List Waiting → Parser Node
  | [] => return operand
  | w :: ws => do closeAll (← w.close operand) ws

/-- A target joins the chain of assignments that it goes on with, or
begins one. -/
def addTarget (m : Mark) (target : Node) : List Waiting → List Waiting
  | .assigns m targets :: ws => .assigns m (target :: targets) :: ws
  | ws => .assigns m [target] :: ws

/-- A condition and its value join the chain of conditionals that they
go on with, or begin one. -/
def addChoice (m : Mark) (condition value : Node) :
    List Waiting → List Waiting
  | .chooses m branches :: ws =>
    .chooses m (value :: condition :: branches) :: ws
  | ws => .chooses m [value, condition] :: ws

/-- A round of operators that group to the right. Only the last branch
of a conditional may hold an assignment or a throw where the whole may
not. -/
def rightRound (g : Inner) (assignment : Bool) (waiting : List Waiting) :
    Parser (Round (List Waiting) Node) := do
  if g.room ≤ waiting.length then fail .nestingTooDeep
  else
    let m ← mark
    let t ← peek
    let allowed := assignment || !waiting.isEmpty
    if allowed && t.isKeyword "throw" then
      advance
      if ← check endsExpression then
        let node ← finish .throwExpression m []
        return .done (← closeAll node waiting)
      else return .again (.throws m :: waiting)
    else if allowed && t.isKeyword "co_yield" then
      advance
      if ← check (·.isPunct "\x7b") then
        let list ← g.parse .initializerList
        let node ← finish .unaryExpression m [list]
        return .done (← closeAll node waiting)
      else return .again (.yields m :: waiting)
    else
      let operand ← binary g binaryLevels
      if ← accept (·.isOperator "?") then
        let value ← expression g
        expectOperator ":" "in conditional expression"
        return .again (addChoice m operand value waiting)
      else if allowed && isOneOf assignmentOperators (← peek) then
        advance
        let waiting := addTarget m operand waiting
        if ← check (·.isPunct "\x7b") then
          let list ← g.parse .initializerList
          return .done (← closeAll list waiting)
        else return .again waiting
      else return .done (← closeAll operand waiting)

/-- Assignments, conditionals and throws, or conditionals only. -/
def rightGrouped (g : Inner) (assignment : Bool) : Parser Node :=
  loop (rightRound g assignment) []

end FrontEnd.Grammar
