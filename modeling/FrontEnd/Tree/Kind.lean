/-
The kinds of nodes of a syntax tree, and the names under which they are
listed.
-/
namespace FrontEnd

/-- The constructs that a tree is made of. -/
inductive NodeKind where
  | unit
  | preprocessorDirective
  | emptyDeclaration
  | simpleDeclaration
  | functionDefinition
  | ctorInitializer
  | classSpecifier
  | accessSpecifier
  | enumSpecifier
  | enumerator
  | namespaceDefinition
  | namespaceAlias
  | linkageSpecification
  | templateDeclaration
  | usingDirective
  | usingDeclaration
  | aliasDeclaration
  | staticAssertDeclaration
  | compoundStatement
  | expressionStatement
  | emptyStatement
  | ifStatement
  | switchStatement
  | whileStatement
  | doStatement
  | forStatement
  | rangeForStatement
  | forRangeDeclaration
  | condition
  | returnStatement
  | breakStatement
  | continueStatement
  | gotoStatement
  | labeledStatement
  | caseLabel
  | defaultLabel
  | tryBlock
  | handler
  | asmDeclaration
  | assignmentExpression
  | conditionalExpression
  | binaryExpression
  | unaryExpression
  | postfixExpression
  | castExpression
  | callExpression
  | subscriptExpression
  | memberAccess
  | parenthesizedExpression
  | bracedInitList
  | lambdaExpression
  | newExpression
  | deleteExpression
  | throwExpression
  | builtinExpression
  | idExpression
  | typeId
  | literal
deriving DecidableEq, Repr, Inhabited

namespace NodeKind

/-- The name of a kind. -/
def name : NodeKind → String
  | .unit => "translationUnit"
  | .preprocessorDirective => "preprocessorDirective"
  | .emptyDeclaration => "emptyDeclaration"
  | .simpleDeclaration => "simpleDeclaration"
  | .functionDefinition => "functionDefinition"
  | .ctorInitializer => "ctorInitializer"
  | .classSpecifier => "classSpecifier"
  | .accessSpecifier => "accessSpecifier"
  | .enumSpecifier => "enumSpecifier"
  | .enumerator => "enumerator"
  | .namespaceDefinition => "namespaceDefinition"
  | .namespaceAlias => "namespaceAlias"
  | .linkageSpecification => "linkageSpecification"
  | .templateDeclaration => "templateDeclaration"
  | .usingDirective => "usingDirective"
  | .usingDeclaration => "usingDeclaration"
  | .aliasDeclaration => "aliasDeclaration"
  | .staticAssertDeclaration => "staticAssertDeclaration"
  | .compoundStatement => "compoundStatement"
  | .expressionStatement => "expressionStatement"
  | .emptyStatement => "emptyStatement"
  | .ifStatement => "ifStatement"
  | .switchStatement => "switchStatement"
  | .whileStatement => "whileStatement"
  | .doStatement => "doStatement"
  | .forStatement => "forStatement"
  | .rangeForStatement => "rangeForStatement"
  | .forRangeDeclaration => "forRangeDeclaration"
  | .condition => "condition"
  | .returnStatement => "returnStatement"
  | .breakStatement => "breakStatement"
  | .continueStatement => "continueStatement"
  | .gotoStatement => "gotoStatement"
  | .labeledStatement => "labeledStatement"
  | .caseLabel => "caseLabel"
  | .defaultLabel => "defaultLabel"
  | .tryBlock => "tryBlock"
  | .handler => "handler"
  | .asmDeclaration => "asmDeclaration"
  | .assignmentExpression => "assignmentExpression"
  | .conditionalExpression => "conditionalExpression"
  | .binaryExpression => "binaryExpression"
  | .unaryExpression => "unaryExpression"
  | .postfixExpression => "postfixExpression"
  | .castExpression => "castExpression"
  | .callExpression => "callExpression"
  | .subscriptExpression => "subscriptExpression"
  | .memberAccess => "memberAccess"
  | .parenthesizedExpression => "parenthesizedExpression"
  | .bracedInitList => "bracedInitList"
  | .lambdaExpression => "lambdaExpression"
  | .newExpression => "newExpression"
  | .deleteExpression => "deleteExpression"
  | .throwExpression => "throwExpression"
  | .builtinExpression => "builtinExpression"
  | .idExpression => "idExpression"
  | .typeId => "typeId"
  | .literal => "literal"

/-- Every kind, in the order of their declaration. -/
def all : List NodeKind := [
  .unit, .preprocessorDirective, .emptyDeclaration,
  .simpleDeclaration, .functionDefinition, .ctorInitializer,
  .classSpecifier, .accessSpecifier, .enumSpecifier, .enumerator,
  .namespaceDefinition, .namespaceAlias, .linkageSpecification,
  .templateDeclaration, .usingDirective, .usingDeclaration,
  .aliasDeclaration, .staticAssertDeclaration, .compoundStatement,
  .expressionStatement, .emptyStatement, .ifStatement, .switchStatement,
  .whileStatement, .doStatement, .forStatement, .rangeForStatement,
  .forRangeDeclaration, .condition, .returnStatement, .breakStatement,
  .continueStatement, .gotoStatement, .labeledStatement, .caseLabel,
  .defaultLabel, .tryBlock, .handler, .asmDeclaration,
  .assignmentExpression, .conditionalExpression, .binaryExpression,
  .unaryExpression, .postfixExpression, .castExpression,
  .callExpression, .subscriptExpression, .memberAccess,
  .parenthesizedExpression, .bracedInitList, .lambdaExpression,
  .newExpression, .deleteExpression, .throwExpression,
  .builtinExpression, .idExpression, .typeId, .literal]

/-- The kind of a name. -/
def ofName? (name : String) : Option NodeKind :=
  all.find? (·.name == name)

end NodeKind

end FrontEnd
