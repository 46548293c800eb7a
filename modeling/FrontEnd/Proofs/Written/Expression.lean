/-
Expression trees, and how they are written.

The rank of an expression is the rule of the grammar that reads it, and
its type says what it may be made of: an operand of a binary operator has
only operators of the tighter levels, and the last operand of a chain of
assignments is no such chain, or it would belong to this one. So whatever
has the type is written without any ambiguity, as `Expression.write` says.

`Expression.node` is the tree that has to be read where the expression
stands. Its ranges are the lexemes written for its parts, and its
locations are those of their first tokens. `Expression.levels` counts the
levels of nesting that reading takes.
-/
import FrontEnd.Proofs.Written.Lexemes

namespace FrontEnd.Written

open Grammar

-- ================================================================= trees

/-- How tightly an expression binds. -/
inductive Rank where
  /-- A literal or parentheses, with postfix operators. -/
  | suffixed
  /-- Operators of the levels, and prefix operators. -/
  | binary (levels : List (List String))
  /-- Possibly a chain of assignments, or one of conditionals. -/
  | right (assigns chooses : Bool)
  /-- With commas. -/
  | list
deriving DecidableEq, Repr

/-- What a row of parts belongs to. -/
inductive Series where
  /-- Expressions with commas between them, at least one. -/
  | items
  /-- Operators of a level, each with the operand behind it. -/
  | operands (level : List String) (levels : List (List String))
  /-- Targets of assignments, each with the operator behind it. -/
  | targets
  /-- Conditions and values of conditionals. -/
  | choices
deriving DecidableEq, Repr

mutual

/-- An expression of a rank. -/
inductive Expression : Rank → Type where
  | number (value : String) : Expression .suffixed
  | parens (inner : Expression .list) : Expression .suffixed
  | step (operand : Expression .suffixed) (op : String)
    (h : op = "++" ∨ op = "--") : Expression .suffixed
  | call (callee : Expression .suffixed) : Expression .suffixed
  | callWith (callee : Expression .suffixed) (arguments : Parts .items) :
    Expression .suffixed
  | subscript (object : Expression .suffixed) (index : Expression .list) :
    Expression .suffixed
  | plain (operand : Expression .suffixed) : Expression (.binary [])
  | unary (op : String) (h : Word.canonical op ∈ unaryOperators)
    (operand : Expression (.binary [])) : Expression (.binary [])
  /-- Without an operator of the loosest level. -/
  | tight {level : List String} {levels : List (List String)}
    (operand : Expression (.binary levels)) :
    Expression (.binary (level :: levels))
  | joined {level : List String} {levels : List (List String)}
    (first : Expression (.binary levels)) (op : String)
    (h : Word.canonical op ∈ level) (second : Expression (.binary levels))
    (others : Parts (.operands level levels)) :
    Expression (.binary (level :: levels))
  /-- No chain at all. -/
  | simple {assigns chooses : Bool}
    (operand : Expression (.binary binaryLevels)) :
    Expression (.right assigns chooses)
  | assigns {chooses : Bool} (first : Expression (.binary binaryLevels))
    (op : String) (h : Word.canonical op ∈ assignmentOperators)
    (others : Parts .targets) (last : Expression (.right false true)) :
    Expression (.right true chooses)
  | chooses {assigns : Bool}
    (condition : Expression (.binary binaryLevels))
    (first : Expression .list) (others : Parts .choices)
    (last : Expression (.right true false)) :
    Expression (.right assigns true)
  /-- Without a comma. -/
  | single (operand : Expression (.right true true)) : Expression .list
  | several (first : Expression (.right true true))
    (others : Parts .items) : Expression .list

/-- Parts of an expression in a row. -/
inductive Parts : Series → Type where
  | lastItem (e : Expression (.right true true)) : Parts .items
  | item (e : Expression (.right true true)) (rest : Parts .items) :
    Parts .items
  | noOperand {level : List String} {levels : List (List String)} :
    Parts (.operands level levels)
  | operand {level : List String} {levels : List (List String)}
    (op : String) (h : Word.canonical op ∈ level)
    (e : Expression (.binary levels))
    (rest : Parts (.operands level levels)) :
    Parts (.operands level levels)
  | noTarget : Parts .targets
  | target (e : Expression (.binary binaryLevels)) (op : String)
    (h : Word.canonical op ∈ assignmentOperators) (rest : Parts .targets) :
    Parts .targets
  | noChoice : Parts .choices
  | choice (condition : Expression (.binary binaryLevels))
    (e : Expression .list) (rest : Parts .choices) : Parts .choices

end

variable {r : Rank} {k : Series}

-- =============================================================== writing

mutual

/-- The lexemes of an expression. -/
def Expression.write : {r : Rank} → Expression r → List Lexeme
  | _, .number v => [.number v]
  | _, .parens inner => .punct "(" :: (inner.write ++ [.punct ")"])
  | _, .step e op _ => e.write ++ [.operator op]
  | _, .call callee => callee.write ++ [.punct "(", .punct ")"]
  | _, .callWith callee arguments =>
    callee.write ++ .punct "(" :: (arguments.write ++ [.punct ")"])
  | _, .subscript object index =>
    object.write ++ .punct "[" :: (index.write ++ [.punct "]"])
  | _, .plain e => e.write
  | _, .unary op _ e => .operator op :: e.write
  | _, .tight e => e.write
  | _, .joined first op _ second others =>
    first.write ++ .operator op :: (second.write ++ others.write)
  | _, .simple e => e.write
  | _, .assigns first op _ others last =>
    first.write ++ .operator op :: (others.write ++ last.write)
  | _, .chooses condition first others last =>
    condition.write ++ .operator "?" ::
      (first.write ++ .operator ":" :: (others.write ++ last.write))
  | _, .single e => e.write
  | _, .several first others =>
    first.write ++ .punct "," :: others.write

/-- The lexemes of parts. -/
def Parts.write : {k : Series} → Parts k → List Lexeme
  | _, .lastItem e => e.write
  | _, .item e rest => e.write ++ .punct "," :: rest.write
  | _, .noOperand => []
  | _, .operand op _ e rest => .operator op :: (e.write ++ rest.write)
  | _, .noTarget => []
  | _, .target e op _ rest => e.write ++ .operator op :: rest.write
  | _, .noChoice => []
  | _, .choice condition e rest =>
    condition.write ++ .operator "?" ::
      (e.write ++ .operator ":" :: rest.write)

end

/-- The number of lexemes of an expression. -/
def Expression.length (e : Expression r) : Nat := e.write.length

/-- The number of lexemes of parts. -/
def Parts.length (p : Parts k) : Nat := p.write.length

-- ================================================================= nodes

/-- A node of some tokens. -/
def nodeOf (locate : Nat → Location) (kind : NodeKind)
    (index length : Nat) (children : List Node) : Node :=
  { kind := kind, first := index, stop := index + length
    location := locate index, recovered := false, children := children }

variable (locate : Nat → Location)

mutual

/-- The node of an expression that begins at the index. It covers the
lexemes that are written for it. -/
def Expression.node (locate : Nat → Location) :
    {r : Rank} → Expression r → Nat → Node
  | _, whole@(.number _), i => nodeOf locate .literal i whole.length []
  | _, whole@(.parens inner), i =>
    nodeOf locate .parenthesizedExpression i whole.length
      [inner.node locate (i + 1)]
  | _, whole@(.step e _ _), i =>
    nodeOf locate .postfixExpression i whole.length [e.node locate i]
  | _, whole@(.call callee), i =>
    nodeOf locate .callExpression i whole.length [callee.node locate i]
  | _, whole@(.callWith callee arguments), i =>
    nodeOf locate .callExpression i whole.length
      (callee.node locate i
        :: arguments.nodes locate (i + callee.length + 1))
  | _, whole@(.subscript object index), i =>
    nodeOf locate .subscriptExpression i whole.length
      [object.node locate i, index.node locate (i + object.length + 1)]
  | _, .plain e, i => e.node locate i
  | _, whole@(.unary _ _ e), i =>
    nodeOf locate .unaryExpression i whole.length
      [e.node locate (i + 1)]
  | _, .tight e, i => e.node locate i
  | _, whole@(.joined first _ _ second others), i =>
    nodeOf locate .binaryExpression i whole.length
      (first.node locate i
        :: second.node locate (i + first.length + 1)
        :: others.nodes locate (i + first.length + 1 + second.length))
  | _, .simple e, i => e.node locate i
  | _, whole@(.assigns first _ _ others last), i =>
    nodeOf locate .assignmentExpression i whole.length
      (first.node locate i
        :: others.nodes locate (i + first.length + 1)
        ++ [last.node locate (i + first.length + 1 + others.length)])
  | _, whole@(.chooses condition first others last), i =>
    nodeOf locate .conditionalExpression i whole.length
      (condition.node locate i
        :: first.node locate (i + condition.length + 1)
        :: others.nodes locate
          (i + condition.length + 1 + first.length + 1)
        ++ [last.node locate
          (i + condition.length + 1 + first.length + 1 + others.length)])
  | _, .single e, i => e.node locate i
  | _, whole@(.several first others), i =>
    nodeOf locate .binaryExpression i whole.length
      (first.node locate i
        :: others.nodes locate (i + first.length + 1))

/-- The nodes of parts that begin at the index. -/
def Parts.nodes (locate : Nat → Location) :
    {k : Series} → Parts k → Nat → List Node
  | _, .lastItem e, i => [e.node locate i]
  | _, .item e rest, i =>
    e.node locate i :: rest.nodes locate (i + e.length + 1)
  | _, .noOperand, _ => []
  | _, .operand _ _ e rest, i =>
    e.node locate (i + 1) :: rest.nodes locate (i + 1 + e.length)
  | _, .noTarget, _ => []
  | _, .target e _ _ rest, i =>
    e.node locate i :: rest.nodes locate (i + e.length + 1)
  | _, .noChoice, _ => []
  | _, .choice condition e rest, i =>
    condition.node locate i
      :: e.node locate (i + condition.length + 1)
      :: rest.nodes locate (i + condition.length + 1 + e.length + 1)

end

-- ================================================================ nesting

mutual

/-- How many levels of nesting have to be left where an expression is
read behind that many operators that wait for it. -/
def Expression.levels : {r : Rank} → Expression r → Nat → Nat
  | _, .number _, _ => 0
  | _, .parens inner, _ => inner.levels 0
  | _, .step e _ _, _ => e.levels 0
  | _, .call callee, _ => callee.levels 0
  | _, .callWith callee arguments, _ =>
    max (callee.levels 0) arguments.levels
  | _, .subscript object index, _ =>
    max (object.levels 0) (index.levels 0)
  | _, .plain e, _ => e.levels 0
  | _, .unary _ _ e, _ => e.levels 0 + 1
  | _, .tight e, _ => e.levels 0
  | _, .joined first _ _ second others, _ =>
    max (first.levels 0) (max (second.levels 0) others.levels)
  | _, .simple e, waiting => max (waiting + 1) (e.levels 0)
  | _, .assigns first _ _ others last, waiting =>
    max (first.levels 0) (max others.levels (last.levels (waiting + 1)))
  | _, .chooses condition first others last, waiting =>
    max (max (condition.levels 0) (first.levels 0))
      (max others.levels (last.levels (waiting + 1)))
  | _, .single e, _ => e.levels 0 + 1
  | _, .several first others, _ =>
    max (first.levels 0 + 1) others.levels

/-- How many levels of nesting have to be left where parts are read. -/
def Parts.levels : {k : Series} → Parts k → Nat
  | _, .lastItem e => e.levels 0 + 1
  | _, .item e rest => max (e.levels 0 + 1) rest.levels
  | _, .noOperand => 0
  | _, .operand _ _ e rest => max (e.levels 0) rest.levels
  | _, .noTarget => 0
  | _, .target e _ _ rest => max (e.levels 0) rest.levels
  | _, .noChoice => 0
  | _, .choice condition e rest =>
    max (max (condition.levels 0) (e.levels 0)) rest.levels

end

/-- A chain takes a level for every operator that waits, and one more. -/
theorem Expression.lt_levels : {r : Rank} → (e : Expression r) →
    (h : ∃ a c, r = .right a c) → (waiting : Nat) →
    waiting < e.levels waiting
  | _, .simple e, _, waiting =>
    Nat.lt_of_lt_of_le (Nat.lt_succ_self _) (le_max_left _ _)
  | _, .assigns first op h others last, _, waiting => by
    have := last.lt_levels ⟨_, _, rfl⟩ (waiting + 1)
    unfold levels
    omega
  | _, .chooses condition first others last, _, waiting => by
    have := last.lt_levels ⟨_, _, rfl⟩ (waiting + 1)
    unfold levels
    omega

end FrontEnd.Written
