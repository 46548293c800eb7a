/-
Declarations at namespace and class scope. Declarators have no nodes of
their own: a simple declaration is a walk over specifiers and
declarators up to the semicolon that reads classes, enumerations and
initializers on its way, and becomes a function definition where a body
follows a parameter list.
-/
import FrontEnd.Grammar.Specifier

namespace FrontEnd.Grammar

-- ================================================= simple declarations

/-- What a simple declaration has come to: its parts, last one first,
and whether a parameter list was read since the last comma. -/
structure Walk where
  parts : List Node
  parameters : Bool

/-- The keywords that cannot stand in a simple declaration. -/
def foreignKeywords : List String := [
  "namespace", "using", "static_assert", "true", "false", "nullptr",
  "this", "new", "delete", "sizeof", "default"]

/-- The operators that belong to declarators. -/
def declaratorOperators : List String :=
  ["::", "*", "&", "&&", "...", "~", "->"]

/-- Behind an initializer only another declarator or the end can
come. -/
def declaratorEnd : Parser Unit := do
  if ← check fun t => t.isPunct "," || t.isPunct ";" then return ()
  else failExpected "';' after declaration"

/-- Goes on with another part. -/
def Walk.add (w : Walk) (part : Node) : Round Walk Node :=
  .again { w with parts := part :: w.parts }

/-- Goes on with another part, if the walk came to one. -/
def Walk.addSome (w : Walk) : Option Node → Round Walk Node
  | some part => w.add part
  | none => .again w

/-- The finished function definition. -/
def Walk.function (w : Walk) (m : Mark) : Parser (Round Walk Node) := do
  return .done (← finish .functionDefinition m w.parts.reverse)

/-- A bracket or separator of a simple declaration. -/
def punctRound (g : Inner) (m : Mark) (w : Walk) (t : Token) :
    Parser (Round Walk Node) := do
  if t.value == ";" then
    advance
    return .done (← finish .simpleDeclaration m w.parts.reverse)
  else if t.value == "(" then
    skipGroup "after parameter list"
    return .again { w with parameters := true }
  else if t.value == "[" then
    skipGroup "after array bound"
    return .again w
  else if t.value == "\x7b" then
    if w.parameters then
      let body ← block g
      Walk.function { w with parts := body :: w.parts } m
    else
      let list ← g.parse .initializerList
      declaratorEnd
      return w.add list
  else if t.value == "," then
    advance
    return .again { w with parameters := false }
  else fail .unexpected

/-- An operator of a simple declaration. -/
def operatorRound (g : Inner) (m : Mark) (w : Walk) (t : Token) :
    Parser (Round Walk Node) := do
  if t.isOperator "=" then
    advance
    let isSpecial ←
      if w.parameters then
        accept fun t => t.isKeyword "default" || t.isKeyword "delete"
      else pure false
    if isSpecial then
      expectPunct ";" "after function declaration"
      w.function m
    else
      let value ← initializer g
      declaratorEnd
      return w.add value
  else if t.isOperator "<" then
    skipTemplateArguments
    return .again w
  else if t.isOperator ":" then
    if w.parameters then
      let members ← constructorInitializer g
      if ← check fun t => t.isPunct "\x7b" || t.isKeyword "try" then
        return w.add members
      else failExpected "'\x7b' after constructor initializer"
    else
      -- the width of a bit-field
      advance
      let width ← g.parse .conditional
      declaratorEnd
      return w.add width
  else if isOneOf declaratorOperators t then
    advance
    return .again w
  else fail .unexpected

/-- A keyword of a simple declaration. -/
def keywordRound (g : Inner) (m : Mark) (w : Walk) (t : Token) :
    Parser (Round Walk Node) := do
  if ["class", "struct", "union"].contains t.value then
    return w.addSome (← classSpecifier g)
  else if t.value == "enum" then
    return w.addSome (← enumSpecifier g)
  else if t.value == "operator" then
    operatorFunctionName
    return .again w
  else if t.value == "try" && w.parameters then
    let body ← tryBlock g
    Walk.function { w with parts := body :: w.parts } m
  else if t.value == "requires" then
    requiresClause
    return .again w
  else if ["alignas", "decltype", "noexcept", "throw"].contains t.value then
    advance
    if ← check (·.isPunct "(") then skipGroup "after specifier"
    return .again w
  else if foreignKeywords.contains t.value || Word.isStatement t.value then
    fail .unexpected
  else
    advance
    return .again w

/-- A round of a simple declaration that began at the mark. -/
def simpleRound (g : Inner) (m : Mark) (w : Walk) :
    Parser (Round Walk Node) := do
  let t ← peek
  match t.kind with
  | .endOfFile => failExpected "';' after declaration"
  | .punctuation => punctRound g m w t
  | .operator => operatorRound g m w t
  | .keyword => keywordRound g m w t
  | .identifier =>
    advance
    return .again w
  | _ => fail .unexpected

/-- A simple declaration or a function definition. -/
def simpleDeclaration (g : Inner) : Parser Node := do
  let m ← mark
  loop (simpleRound g m) ⟨[], false⟩

-- ================================================== other declarations

/-- Declarations in braces, up to and through the closing one. -/
def declarationsInBraces (g : Inner) (context : String) :
    Parser (List Node) := do
  let items ← sequence g.policy "\x7d" (g.parse .declaration)
  expectPunct "\x7d" context
  return items

/-- A namespace or an alias of one. -/
def namespaceDefinition (g : Inner) : Parser Node := do
  let m ← mark
  let _ ← accept (·.isKeyword "inline")
  advance
  skipAttributes
  skipWhile fun t =>
    t.isName || t.isOperator "::" || t.isKeyword "inline"
  if ← accept (·.isOperator "=") then
    skipToSemicolon "after namespace alias"
    finish .namespaceAlias m []
  else
    skipAttributes
    expectPunct "\x7b" "after namespace name"
    let items ← declarationsInBraces g "after namespace body"
    finish .namespaceDefinition m items

/-- A `using` directive, declaration or alias. -/
def usingDeclaration : Parser Node := do
  let m ← mark
  advance
  let next ← peekAt 1
  if ← check (·.isKeyword "namespace") then
    skipToSemicolon "after using directive"
    finish .usingDirective m []
  else if (← check Token.isName)
      && (next.isSpelled "=" || next.isPunct "[") then
    advance
    skipAttributes
    expectOperator "=" "in alias declaration"
    if ← check (·.isPunct ";") then failExpected "type after '='"
    else
      skipToSemicolon "after alias declaration"
      finish .aliasDeclaration m []
  else
    skipToSemicolon "after using declaration"
    finish .usingDeclaration m []

/-- A template, its parameters and constraint passed over. -/
def templateDeclaration (g : Inner) : Parser Node := do
  let m ← mark
  advance
  if ← check (·.isOperator "<") then skipTemplateArguments
  if ← check (·.isKeyword "requires") then requiresClause
  let declaration ← g.parse .declaration
  finish .templateDeclaration m [declaration]

/-- Declarations, or one of them, in the linkage of a language. -/
def linkageSpecification (g : Inner) : Parser Node := do
  let m ← mark
  advance
  advance
  if ← accept (·.isPunct "\x7b") then
    let items ← declarationsInBraces g "after linkage specification"
    finish .linkageSpecification m items
  else
    let item ← g.parse .declaration
    finish .linkageSpecification m [item]

/-- A static assertion. -/
def staticAssertion (g : Inner) : Parser Node := do
  let m ← mark
  advance
  expectPunct "(" "after 'static_assert'"
  let condition ← g.parse .assignment
  let children ←
    if ← accept (·.isPunct ",") then
      pure [condition, ← g.parse .assignment]
    else pure [condition]
  expectPunct ")" "after static assertion"
  expectPunct ";" "after static assertion"
  finish .staticAssertDeclaration m children

/-- Assembler text, which is not looked into. -/
def asmDeclaration : Parser Node := do
  let m ← mark
  advance
  skipWhile fun t =>
    t.isKeyword "volatile" || t.isKeyword "inline" || t.isKeyword "goto"
  if ← check (·.isPunct "(") then
    skipGroup "after assembler text"
    expectPunct ";" "after asm declaration"
    finish .asmDeclaration m []
  else failExpected "'(' after 'asm'"

/-- Any declaration. -/
def declaration (g : Inner) : Parser Node := do
  let t ← peek
  let next ← peekAt 1
  if t.isPunct ";" then
    let m ← mark
    advance
    finish .emptyDeclaration m []
  else if t.isKeyword "namespace"
      || (t.isKeyword "inline" && next.isKeyword "namespace") then
    namespaceDefinition g
  else if t.isKeyword "using" then usingDeclaration
  else if t.isKeyword "template" then templateDeclaration g
  else if (t.isKeyword "export" || t.isKeyword "extern")
      && next.isKeyword "template" then
    advance
    templateDeclaration g
  else if t.isKeyword "extern" && next.isString then
    linkageSpecification g
  else if t.isKeyword "static_assert" then staticAssertion g
  else if t.isKeyword "asm" then asmDeclaration
  else simpleDeclaration g

end FrontEnd.Grammar
