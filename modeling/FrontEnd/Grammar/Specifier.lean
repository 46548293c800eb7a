/-
Parts of declarations: classes and enumerations with their bodies,
constraints, the names of operator functions and the initializers of a
constructor.
-/
import FrontEnd.Grammar.Expression

namespace FrontEnd.Grammar

-- =========================================================== functions

/-- The name of an operator function in its declaration. The type of a
conversion function is left to be read as part of the declaration. -/
def operatorFunctionName : Parser Unit := do
  advance
  let t ← peek
  let next ← peekAt 1
  if (t.isPunct "(" && next.isPunct ")")
      || (t.isPunct "[" && next.isPunct "]") then
    advance
    advance
  else if t.isPunct "," || t.kind == .operator then advance
  else if t.isKeyword "new" || t.isKeyword "delete" then
    advance
    if (← check (·.isPunct "[")) && (← peekAt 1).isPunct "]" then
      advance
      advance
  else if t.isString then
    advance
    let _ ← accept Token.isName
  else return ()

/-- The initializer of one member or base. -/
def memberInitializer (g : Inner) : Parser Node := do
  let m ← mark
  let name ← idExpression
  if ← check (·.isPunct "(") then
    let items ← arguments g
    finish .callExpression m (name :: items)
  else if ← check (·.isPunct "\x7b") then
    let list ← g.parse .initializerList
    finish .callExpression m [name, list]
  else failExpected "'(' or '\x7b' after member initializer"

/-- The initializers between a constructor's parameters and its body,
from the colon on. -/
def constructorInitializer (g : Inner) : Parser Node := do
  let m ← mark
  advance
  let items ← commaSeparated do
    let item ← memberInitializer g
    let _ ← accept (·.isOperator "...")
    return item
  finish .ctorInitializer m items

-- ========================================================= constraints

/-- A qualified name in a constraint, with template arguments. -/
def constraintName : Parser Unit := do
  let _ ← accept (·.isOperator "::")
  expectName
  loop (fun _ => do
    if ← check (·.isOperator "<") then skipTemplateArguments
    if (← check (·.isOperator "::")) && (← peekAt 1).isName then
      advance
      advance
      return .again ()
    else return .done ()) ()

/-- One operand of a constraint, behind its negations. -/
def constraintOperand : Parser Unit := do
  skipWhile (·.isOperator "!")
  let t ← peek
  if t.isPunct "(" then skipGroup "after requires clause"
  else if t.isKeyword "true" || t.isKeyword "false" then advance
  else constraintName

/-- A constraint, from the keyword `requires` on: operands joined by
`&&` and `||`. -/
def requiresClause : Parser Unit := do
  advance
  loop (fun _ => do
    constraintOperand
    if ← accept fun t => t.isOperator "&&" || t.isOperator "||" then
      return .again ()
    else return .done ()) ()

-- ============================================================= classes

/-- How many tokens the label at the start of the list has that may
stand among the members of a class: an access specifier, one with a
name, or a name alone. A number behind the colon makes it the width of
a bit-field. -/
def memberLabel (ts : List Token) : Option Nat :=
  let t := tokenAt 0 ts
  let next := tokenAt 1 ts
  let third := tokenAt 2 ts
  let isAccess :=
    t.isKeyword "public" || t.isKeyword "protected" || t.isKeyword "private"
  if isAccess && next.isSpelled ":" then some 2
  else if isAccess && next.isName && third.isSpelled ":" then some 3
  else if t.isName && next.isSpelled ":" && third.kind != .number then
    some 2
  else none

/-- Reads a number of tokens. -/
def skip : Nat → Parser Unit
  | 0 => return ()
  | n + 1 => do
    advance
    skip n

/-- A label or a declaration in a class. -/
def memberDeclaration (g : Inner) : Parser Node := fun s =>
  match memberLabel s.rest with
  | some length => (do
    let m ← mark
    skip length
    finish .accessSpecifier m []) s
  | none => g.parse .declaration s

/-- The bases of a class, up to its body. -/
def baseClause : Parser Unit :=
  loop (fun _ => do
    let t ← peek
    if t.isPunct "\x7b" then return .done ()
    else
      if t.isPunct "(" then skipGroup "in base clause"
      else if t.isSpelled "<" then skipTemplateArguments
      else if t.isName || t.kind == .keyword || t.kind == .operator
          || t.isPunct "," then advance
      else failExpected "'\x7b' after base clause"
      return .again ()) ()

/-- The name of a class, possibly qualified or specialized, with the
names that may stand between it and the body. -/
def className : Parser Unit := do
  loop (fun _ => do
    let t ← peek
    if t.isName || t.isOperator "::" then
      advance
      return .again ()
    else if t.isOperator "<" then
      skipTemplateArguments
      return .again ()
    else return .done ()) ()
  skipWhile Token.isName

/-- The members of a class in braces. -/
def classBody (g : Inner) (m : Mark) : Parser Node := do
  expectPunct "\x7b" "before class body"
  let members ← sequence g.policy "\x7d" (memberDeclaration g)
  expectPunct "\x7d" "after class body"
  finish .classSpecifier m members

/-- A class, from its keyword on. Without a body it only names a type,
and there is no node. -/
def classSpecifier (g : Inner) : Parser (Option Node) := do
  let m ← mark
  advance
  skipAttributes
  className
  if ← accept (·.isOperator ":") then
    baseClause
    return some (← classBody g m)
  else if ← check (·.isPunct "\x7b") then return some (← classBody g m)
  else return none

-- ======================================================== enumerations

/-- One name of an enumeration, with its value if it has one. -/
def enumerator (g : Inner) : Parser Node := do
  let m ← mark
  expectName
  skipAttributes
  if ← accept (·.isOperator "=") then
    let value ← g.parse .conditional
    finish .enumerator m [value]
  else finish .enumerator m []

/-- The names of an enumeration, from behind its opening brace. -/
def enumerators (g : Inner) : Parser (List Node) :=
  loop (fun done => do
    if ← check (·.isPunct "\x7d") then return .done done.reverse
    else
      let done := (← enumerator g) :: done
      if ← accept (·.isPunct ",") then return .again done
      else if ← check (·.isPunct "\x7d") then return .again done
      else failExpected "',' or '\x7d' after enumerator") []

/-- The name of an enumeration and its underlying type. -/
def enumHead : Parser Unit := do
  advance
  let isClass ← accept (·.isKeyword "class")
  if !isClass then
    let _ ← accept (·.isKeyword "struct")
  skipAttributes
  skipWhile fun t => t.isName || t.isOperator "::"
  if ← accept (·.isOperator ":") then
    skipWhile fun t =>
      t.isName || t.kind == .keyword || t.isOperator "::"

/-- An enumeration, from its keyword on. Without a body it only names a
type, and there is no node. -/
def enumSpecifier (g : Inner) : Parser (Option Node) := do
  let m ← mark
  enumHead
  if ← accept (·.isPunct "\x7b") then
    let names ← enumerators g
    expectPunct "\x7d" "after enumerator list"
    return some (← finish .enumSpecifier m names)
  else return none

end FrontEnd.Grammar
