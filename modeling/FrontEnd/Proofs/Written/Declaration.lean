/-
Declaration trees, and how they are written: namespaces, blocks of a
linkage, classes with access labels, enumerations, templates, variables
with and without initializers, and functions.

Three kinds of body hold items: `Declarations` those of a namespace or a
linkage, `Members` those of a class, `Enumerators` those of an
enumeration; the body of a function has the statements of `Items`.
`Declaration.node` and `Declaration.levels` say of declarations what
`Statement.node` and `Statement.levels` say of statements.
-/
import FrontEnd.Proofs.Written.Statement

namespace FrontEnd.Written

open Grammar

-- ================================================================= trees

/-- A name of an enumeration, and its value if it has one. -/
structure Enumerator where
  name : String
  value : Option (Expression (.binary binaryLevels))

/-- The names of an enumeration. -/
inductive Enumerators : Type where
  | noName
  | lastName (e : Enumerator)
  | nextName (e : Enumerator) (rest : Enumerators)

/-- The access that a label in a class gives. -/
inductive Access where
  | isPublic
  | isProtected
  | isPrivate
deriving DecidableEq, Repr

/-- The keyword of an access. -/
def Access.word : Access → String
  | isPublic => "public"
  | isProtected => "protected"
  | isPrivate => "private"

mutual

/-- A declaration. -/
inductive Declaration : Type where
  | empty
  | variable (name : String)
  | initialized (name : String) (value : Expression (.right true true))
  | function (name : String) (body : Items)
  | enumeration (name : String) (names : Enumerators)
  | structure (name : String) (members : Members)
  /-- With a type as the only parameter. -/
  | template (parameter : String) (declaration : Declaration)
  /-- With a name or without one. -/
  | namespace (name : Option String) (body : Declarations)
  | linkage (language : String) (body : Declarations)

/-- What stands in a file, a namespace or a linkage. -/
inductive Declarations : Type where
  | noDeclaration
  | declaration (d : Declaration) (rest : Declarations)

/-- What stands in a class. -/
inductive Members : Type where
  | noMember
  | label (access : Access) (rest : Members)
  | member (d : Declaration) (rest : Members)

end

-- =============================================================== writing

/-- The lexemes of an enumerator. -/
def Enumerator.write (e : Enumerator) : List Lexeme :=
  .name e.name ::
    match e.value with
    | none => []
    | some value => .operator "=" :: value.write

/-- The lexemes of enumerators. -/
def Enumerators.write : Enumerators → List Lexeme
  | .noName => []
  | .lastName e => e.write
  | .nextName e rest => e.write ++ .punct "," :: rest.write

/-- The lexemes in front of the body of a namespace. -/
def namespaceHead (name : Option String) : List Lexeme :=
  .keyword "namespace" :: (name.map Lexeme.name).toList

/-- The lexemes in front of what is a template. -/
def templateHead (parameter : String) : List Lexeme :=
  [.keyword "template", .operator "<", .keyword "typename",
    .name parameter, .operator ">"]

mutual

/-- The lexemes of a declaration. -/
def Declaration.write : Declaration → List Lexeme
  | .empty => [.punct ";"]
  | .variable name => [.keyword "int", .name name, .punct ";"]
  | .initialized name value =>
    .keyword "int" :: .name name :: .operator "=" ::
      (value.write ++ [.punct ";"])
  | .function name body =>
    .keyword "int" :: .name name :: .punct "(" :: .punct ")" ::
      inBraces body.write
  | .enumeration name names =>
    .keyword "enum" :: .name name :: (inBraces names.write ++ [.punct ";"])
  | .structure name members =>
    .keyword "struct" :: .name name ::
      (inBraces members.write ++ [.punct ";"])
  | .template parameter declaration =>
    templateHead parameter ++ declaration.write
  | .namespace name body => namespaceHead name ++ inBraces body.write
  | .linkage language body =>
    .keyword "extern" :: .string language :: inBraces body.write

/-- The lexemes of declarations. -/
def Declarations.write : Declarations → List Lexeme
  | .noDeclaration => []
  | .declaration d rest => d.write ++ rest.write

/-- The lexemes of members. -/
def Members.write : Members → List Lexeme
  | .noMember => []
  | .label access rest =>
    .keyword access.word :: .operator ":" :: rest.write
  | .member d rest => d.write ++ rest.write

end

def Enumerator.length (e : Enumerator) : Nat := e.write.length

def Enumerators.length (names : Enumerators) : Nat := names.write.length

def Declaration.length (d : Declaration) : Nat := d.write.length

def Declarations.length (body : Declarations) : Nat := body.write.length

def Members.length (members : Members) : Nat := members.write.length

-- ================================================================= nodes

/-- The node of an enumerator that begins at the index. -/
def Enumerator.node (locate : Nat → Location) (e : Enumerator)
    (i : Nat) : Node :=
  nodeOf locate .enumerator i e.length
    (e.value.toList.map (·.node locate (i + 2)))

/-- The nodes of enumerators. -/
def Enumerators.nodes (locate : Nat → Location) :
    Enumerators → Nat → List Node
  | .noName, _ => []
  | .lastName e, i => [e.node locate i]
  | .nextName e rest, i =>
    e.node locate i :: rest.nodes locate (i + e.length + 1)

/-- The node of what has a keyword, a name and so many lexemes in braces. -/
def specifierNode (locate : Nat → Location) (kind : NodeKind)
    (i length : Nat) (items : List Node) : Node :=
  nodeOf locate kind i (length + 4) items

mutual

/-- The node of a declaration that begins at the index. It covers the
lexemes that are written for it. -/
def Declaration.node (locate : Nat → Location) :
    Declaration → Nat → Node
  | whole@(.empty), i => nodeOf locate .emptyDeclaration i whole.length []
  | whole@(.variable _), i =>
    nodeOf locate .simpleDeclaration i whole.length []
  | whole@(.initialized _ value), i =>
    nodeOf locate .simpleDeclaration i whole.length
      [value.node locate (i + 3)]
  | whole@(.function _ body), i =>
    nodeOf locate .functionDefinition i whole.length
      [blockNode locate (i + 4) body.length (body.nodes locate (i + 5))]
  | whole@(.enumeration _ names), i =>
    nodeOf locate .simpleDeclaration i whole.length
      [specifierNode locate .enumSpecifier i names.length
        (names.nodes locate (i + 3))]
  | whole@(.structure _ members), i =>
    nodeOf locate .simpleDeclaration i whole.length
      [specifierNode locate .classSpecifier i members.length
        (members.nodes locate (i + 3))]
  | whole@(.template _ declaration), i =>
    nodeOf locate .templateDeclaration i whole.length
      [declaration.node locate (i + 5)]
  | whole@(.namespace name body), i =>
    nodeOf locate .namespaceDefinition i whole.length
      (body.nodes locate (i + (namespaceHead name).length + 1))
  | whole@(.linkage _ body), i =>
    nodeOf locate .linkageSpecification i whole.length
      (body.nodes locate (i + 3))

/-- The nodes of declarations. -/
def Declarations.nodes (locate : Nat → Location) :
    Declarations → Nat → List Node
  | .noDeclaration, _ => []
  | .declaration d rest, i =>
    d.node locate i :: rest.nodes locate (i + d.length)

/-- The nodes of members. -/
def Members.nodes (locate : Nat → Location) : Members → Nat → List Node
  | .noMember, _ => []
  | .label _ rest, i =>
    nodeOf locate .accessSpecifier i 2 [] :: rest.nodes locate (i + 2)
  | .member d rest, i =>
    d.node locate i :: rest.nodes locate (i + d.length)

end

-- =============================================================== nesting

/-- How many levels of nesting have to be left where an enumerator is
read. Its value is read one level deeper, and takes at least one. -/
def Enumerator.levels (e : Enumerator) : Nat :=
  match e.value with
  | none => 0
  | some value => max 1 (value.levels 0) + 1

/-- How many levels of nesting have to be left where enumerators are
read. -/
def Enumerators.levels : Enumerators → Nat
  | .noName => 0
  | .lastName e => e.levels
  | .nextName e rest => max e.levels rest.levels

mutual

/-- How many levels of nesting have to be left where a declaration is
read. -/
def Declaration.levels : Declaration → Nat
  | .empty | .variable _ => 0
  | .initialized _ value => value.levels 0 + 1
  | .function _ body => body.levels
  | .enumeration _ names => names.levels
  | .structure _ members => members.levels
  | .template _ declaration => declaration.levels + 1
  | .namespace _ body => body.levels
  | .linkage _ body => body.levels

/-- How many levels of nesting have to be left where declarations are
read. -/
def Declarations.levels : Declarations → Nat
  | .noDeclaration => 0
  | .declaration d rest => max (d.levels + 1) rest.levels

/-- How many levels of nesting have to be left where members are read. -/
def Members.levels : Members → Nat
  | .noMember => 0
  | .label _ rest => rest.levels
  | .member d rest => max (d.levels + 1) rest.levels

end

end FrontEnd.Written
