/-
Statement trees, and how they are written.

The type of a statement says two things about it: whether it begins with
an `if`, and what it may end in. An `else` belongs to the nearest `if`
that is still without one; so a branch with another one behind it has to
be closed, and the statement of a final `else` is no `if`, or it would be
another branch of the ladder. A label without a statement stands at the
end of a block only, and labels of cases stand among its items.

`Statement.node` and `Statement.levels` say of statements what
`Expression.node` and `Expression.levels` say of expressions: the tree
that has to be read, and the levels of nesting that this takes.
-/
import FrontEnd.Proofs.Written.Expression

namespace FrontEnd.Written

open Grammar

-- ================================================================= trees

/-- What a statement may end in. -/
inductive Ending where
  /-- Only in what is complete. -/
  | closed
  /-- Also in an `if` without an `else`. -/
  | branch
  /-- Also in a label, with the end of the block behind it. -/
  | label
deriving DecidableEq, Repr

/-- What the statement of a branch may end in. With an `else` behind it,
it has to be closed. -/
def Ending.before : Bool → Ending → Ending
  | true, _ => .closed
  | false, o => o

mutual

/-- A statement. The first index says whether it begins with an `if`, the
second one what it may end in. -/
inductive Statement : Bool → Ending → Type where
  | empty {o : Ending} : Statement false o
  | block {o : Ending} (items : Items) : Statement false o
  | expression {o : Ending} (e : Expression .list) : Statement false o
  /-- A ladder of branches. The last one only need not be closed. -/
  | ladder {k n : Bool} {o : Ending} (condition : Expression .list)
    (body : Statement k (.before n o)) (others : Branches n o) :
    Statement true o
  | switch {k : Bool} {o : Ending} (value : Expression .list)
    (body : Statement k o) : Statement false o
  | whileLoop {k : Bool} {o : Ending} (condition : Expression .list)
    (body : Statement k o) : Statement false o
  | doLoop {k : Bool} {o : Ending} (body : Statement k .branch)
    (condition : Expression .list) : Statement false o
  | forLoop {k : Bool} {o : Ending}
    (start condition step : Option (Expression .list))
    (body : Statement k o) : Statement false o
  | returns {o : Ending} (value : Option (Expression (.right true true))) :
    Statement false o
  | breaks {o : Ending} : Statement false o
  | continues {o : Ending} : Statement false o
  | goto {o : Ending} (label : String) : Statement false o
  | labeled {k : Bool} {o : Ending} (label : String)
    (body : Statement k o) : Statement false o
  /-- A label without a statement. -/
  | endLabel (label : String) : Statement false .label
  | tries {o : Ending} (items : Items) (handlers : Handlers) :
    Statement false o

/-- The branches behind the first one of a ladder: whether there are any,
and what the ladder may end in. -/
inductive Branches : Bool → Ending → Type where
  | noElse {o : Ending} (h : o ≠ .closed) : Branches false o
  | lastElse {o : Ending} (body : Statement false o) : Branches true o
  | elseIf {k n : Bool} {o : Ending} (condition : Expression .list)
    (body : Statement k (.before n o)) (rest : Branches n o) :
    Branches true o

/-- What stands in a block. -/
inductive Items : Type where
  | noItem
  /-- The last statement may end in a label. -/
  | lastItem {k : Bool} (s : Statement k .label)
  | item {k : Bool} (s : Statement k .branch) (rest : Items)
  | caseItem (value : Expression (.binary binaryLevels)) (rest : Items)
  | defaultItem (rest : Items)

/-- Handlers of exceptions of any kind, at least one. -/
inductive Handlers : Type where
  | lastHandler (items : Items)
  | handler (items : Items) (rest : Handlers)

end

variable {k n : Bool} {o : Ending} {r : Rank}

-- =============================================================== writing

/-- The lexemes of an expression that may be left out. -/
def writeSome : Option (Expression r) → List Lexeme
  | none => []
  | some e => e.write

@[simp]
theorem writeSome_none : writeSome (none : Option (Expression r)) = [] :=
  rfl

@[simp]
theorem writeSome_some (e : Expression r) : writeSome (some e) = e.write :=
  rfl

/-- Lexemes in braces. -/
def inBraces (ls : List Lexeme) : List Lexeme :=
  .punct "\x7b" :: (ls ++ [.punct "\x7d"])

/-- The lexemes of a condition behind a keyword. -/
def clause (word : String) (condition : List Lexeme) : List Lexeme :=
  .keyword word :: .punct "(" :: (condition ++ [.punct ")"])

mutual

/-- The lexemes of a statement. -/
def Statement.write : {k : Bool} → {o : Ending} → Statement k o → List Lexeme
  | _, _, .empty => [.punct ";"]
  | _, _, .block items => inBraces items.write
  | _, _, .expression e => e.write ++ [.punct ";"]
  | _, _, .ladder condition body others =>
    clause "if" condition.write ++ (body.write ++ others.write)
  | _, _, .switch value body => clause "switch" value.write ++ body.write
  | _, _, .whileLoop condition body =>
    clause "while" condition.write ++ body.write
  | _, _, .doLoop body condition =>
    .keyword "do" :: (body.write
      ++ (clause "while" condition.write ++ [.punct ";"]))
  | _, _, .forLoop start condition step body =>
    clause "for" (writeSome start ++ .punct ";" ::
      (writeSome condition ++ .punct ";" :: writeSome step)) ++ body.write
  | _, _, .returns value =>
    .keyword "return" :: (writeSome value ++ [.punct ";"])
  | _, _, .breaks => [.keyword "break", .punct ";"]
  | _, _, .continues => [.keyword "continue", .punct ";"]
  | _, _, .goto label => [.keyword "goto", .name label, .punct ";"]
  | _, _, .labeled label body =>
    .name label :: .operator ":" :: body.write
  | _, _, .endLabel label => [.name label, .operator ":"]
  | _, _, .tries items handlers =>
    .keyword "try" :: (inBraces items.write ++ handlers.write)

/-- The lexemes of branches. -/
def Branches.write : {n : Bool} → {o : Ending} → Branches n o → List Lexeme
  | _, _, .noElse _ => []
  | _, _, .lastElse body => .keyword "else" :: body.write
  | _, _, .elseIf condition body rest =>
    .keyword "else" ::
      (clause "if" condition.write ++ (body.write ++ rest.write))

/-- The lexemes of items. -/
def Items.write : Items → List Lexeme
  | .noItem => []
  | .lastItem s => s.write
  | .item s rest => s.write ++ rest.write
  | .caseItem value rest =>
    .keyword "case" :: (value.write ++ .operator ":" :: rest.write)
  | .defaultItem rest => .keyword "default" :: .operator ":" :: rest.write

/-- The lexemes of handlers. -/
def Handlers.write : Handlers → List Lexeme
  | .lastHandler items =>
    clause "catch" [.operator "..."] ++ inBraces items.write
  | .handler items rest =>
    clause "catch" [.operator "..."] ++ (inBraces items.write ++ rest.write)

end

def Statement.length (s : Statement k o) : Nat := s.write.length

def Branches.length (b : Branches n o) : Nat := b.write.length

def Items.length (items : Items) : Nat := items.write.length

def Handlers.length (handlers : Handlers) : Nat := handlers.write.length

/-- The number of lexemes of an expression that may be left out. -/
def lengthSome (e : Option (Expression r)) : Nat := (writeSome e).length

@[simp]
theorem lengthSome_none : lengthSome (none : Option (Expression r)) = 0 :=
  rfl

@[simp]
theorem lengthSome_some (e : Expression r) :
    lengthSome (some e) = e.length := rfl

-- ================================================================= nodes

/-- The node of a condition. -/
def conditionNode (locate : Nat → Location) (e : Expression r)
    (i : Nat) : Node :=
  nodeOf locate .condition i e.length [e.node locate i]

/-- The nodes of an expression that may be left out. -/
def nodesSome (locate : Nat → Location) (e : Option (Expression r))
    (i : Nat) : List Node :=
  e.toList.map (·.node locate i)

/-- The nodes of a condition that may be left out. -/
def conditionsSome (locate : Nat → Location) (e : Option (Expression r))
    (i : Nat) : List Node :=
  e.toList.map (conditionNode locate · i)

/-- The node of a block. -/
def blockNode (locate : Nat → Location) (i length : Nat)
    (children : List Node) : Node :=
  nodeOf locate .compoundStatement i (length + 2) children

mutual

/-- The node of a statement that begins at the index. It covers the
lexemes that are written for it. -/
def Statement.node (locate : Nat → Location) :
    {k : Bool} → {o : Ending} → Statement k o → Nat → Node
  | _, _, whole@(.empty), i => nodeOf locate .emptyStatement i whole.length []
  | _, _, .block items, i =>
    blockNode locate i items.length (items.nodes locate (i + 1))
  | _, _, whole@(.expression e), i =>
    nodeOf locate .expressionStatement i whole.length [e.node locate i]
  | _, _, whole@(.ladder condition body others), i =>
    nodeOf locate .ifStatement i whole.length
      (conditionNode locate condition (i + 2)
        :: body.node locate (i + 2 + condition.length + 1)
        :: others.nodes locate
          (i + 2 + condition.length + 1 + body.length))
  | _, _, whole@(.switch value body), i =>
    nodeOf locate .switchStatement i whole.length
      [conditionNode locate value (i + 2),
        body.node locate (i + 2 + value.length + 1)]
  | _, _, whole@(.whileLoop condition body), i =>
    nodeOf locate .whileStatement i whole.length
      [conditionNode locate condition (i + 2),
        body.node locate (i + 2 + condition.length + 1)]
  | _, _, whole@(.doLoop body condition), i =>
    nodeOf locate .doStatement i whole.length
      [body.node locate (i + 1),
        condition.node locate (i + 1 + body.length + 2)]
  | _, _, whole@(.forLoop start condition step body), i =>
    let second := i + 2 + lengthSome start + 1
    let third := second + lengthSome condition + 1
    nodeOf locate .forStatement i whole.length
      (conditionsSome locate start (i + 2)
        ++ conditionsSome locate condition second
        ++ nodesSome locate step third
        ++ [body.node locate (third + lengthSome step + 1)])
  | _, _, whole@(.returns value), i =>
    nodeOf locate .returnStatement i whole.length
      (nodesSome locate value (i + 1))
  | _, _, whole@(.breaks), i =>
    nodeOf locate .breakStatement i whole.length []
  | _, _, whole@(.continues), i =>
    nodeOf locate .continueStatement i whole.length []
  | _, _, whole@(.goto _), i => nodeOf locate .gotoStatement i whole.length []
  | _, _, whole@(.labeled _ body), i =>
    nodeOf locate .labeledStatement i whole.length
      [body.node locate (i + 2)]
  | _, _, whole@(.endLabel _), i =>
    nodeOf locate .labeledStatement i whole.length []
  | _, _, whole@(.tries items handlers), i =>
    nodeOf locate .tryBlock i whole.length
      (blockNode locate (i + 1) items.length (items.nodes locate (i + 2))
        :: handlers.nodes locate (i + 1 + (items.length + 2)))

/-- The nodes of branches: an `if` for each further condition, and the
statement of the final `else`. -/
def Branches.nodes (locate : Nat → Location) :
    {n : Bool} → {o : Ending} → Branches n o → Nat → List Node
  | _, _, .noElse _, _ => []
  | _, _, .lastElse body, i => [body.node locate (i + 1)]
  | _, _, .elseIf condition body rest, i =>
    nodeOf locate .ifStatement (i + 1) (condition.length + 3 + body.length)
        [conditionNode locate condition (i + 3),
          body.node locate (i + 3 + condition.length + 1)]
      :: rest.nodes locate (i + 3 + condition.length + 1 + body.length)

/-- The nodes of items. -/
def Items.nodes (locate : Nat → Location) : Items → Nat → List Node
  | .noItem, _ => []
  | .lastItem s, i => [s.node locate i]
  | .item s rest, i =>
    s.node locate i :: rest.nodes locate (i + s.length)
  | .caseItem value rest, i =>
    nodeOf locate .caseLabel i (value.length + 2)
        [value.node locate (i + 1)]
      :: rest.nodes locate (i + 1 + value.length + 1)
  | .defaultItem rest, i =>
    nodeOf locate .defaultLabel i 2 [] :: rest.nodes locate (i + 2)

/-- The nodes of handlers. -/
def Handlers.nodes (locate : Nat → Location) :
    Handlers → Nat → List Node
  | .lastHandler items, i =>
    [nodeOf locate .handler i (4 + (items.length + 2))
      [blockNode locate (i + 4) items.length (items.nodes locate (i + 5))]]
  | .handler items rest, i =>
    nodeOf locate .handler i (4 + (items.length + 2))
        [blockNode locate (i + 4) items.length (items.nodes locate (i + 5))]
      :: rest.nodes locate (i + 4 + (items.length + 2))

end

-- ================================================================ nesting

/-- How many levels of nesting an expression takes that may be left
out. -/
def levelsSome : Option (Expression r) → Nat
  | none => 0
  | some e => e.levels 0

mutual

/-- How many levels of nesting have to be left where a statement is
read. -/
def Statement.levels : {k : Bool} → {o : Ending} → Statement k o → Nat
  | _, _, .empty => 0
  | _, _, .block items => items.levels
  | _, _, .expression e => e.levels 0
  | _, _, .ladder condition body others =>
    max (condition.levels 0) (max (body.levels + 1) others.levels)
  | _, _, .switch value body => max (value.levels 0) (body.levels + 1)
  | _, _, .whileLoop condition body =>
    max (condition.levels 0) (body.levels + 1)
  | _, _, .doLoop body condition =>
    max (condition.levels 0) (body.levels + 1)
  | _, _, .forLoop start condition step body =>
    max (max (levelsSome start) (levelsSome condition))
      (max (levelsSome step) (body.levels + 1))
  | _, _, .returns none => 0
  | _, _, .returns (some e) => e.levels 0 + 1
  | _, _, .breaks => 0
  | _, _, .continues => 0
  | _, _, .goto _ => 0
  | _, _, .labeled _ body => body.levels + 1
  | _, _, .endLabel _ => 0
  | _, _, .tries items handlers => max items.levels handlers.levels

/-- How many levels of nesting have to be left where branches are
read. -/
def Branches.levels : {n : Bool} → {o : Ending} → Branches n o → Nat
  | _, _, .noElse _ => 0
  | _, _, .lastElse body => body.levels + 1
  | _, _, .elseIf condition body rest =>
    max (condition.levels 0) (max (body.levels + 1) rest.levels)

/-- How many levels of nesting have to be left where a block is read. -/
def Items.levels : Items → Nat
  | .noItem => 0
  | .lastItem s => s.levels + 1
  | .item s rest => max (s.levels + 1) rest.levels
  | .caseItem value rest => max (max 1 (value.levels 0) + 2) rest.levels
  | .defaultItem rest => max 1 rest.levels

/-- How many levels of nesting have to be left where handlers are
read. -/
def Handlers.levels : Handlers → Nat
  | .lastHandler items => items.levels
  | .handler items rest => max items.levels rest.levels

end

end FrontEnd.Written
