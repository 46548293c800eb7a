/-
Questions about the tokens ahead that tell readings of the same tokens
apart: whether a `<` opens template arguments, whether a parenthesis
opens a cast, whether a declaration comes next. None of them reads
anything, and each looks at a bounded number of tokens only.
-/
import FrontEnd.Grammar.Group

namespace FrontEnd.Grammar

-- ================================================= template arguments

/-- How many tokens template arguments may have. -/
def argumentWindow : Nat := 64

/-- What stands behind the angle bracket that closes the `angles` open
ones, if that comes within `window` tokens and nothing in front of it is
out of place in template arguments. -/
def behindAngles (window angles brackets : Nat) :
    List Token → Option (List Token)
  | [] => none
  | t :: ts =>
    if t.isDirective then behindAngles window angles brackets ts
    else match window with
      | 0 => none
      | window + 1 =>
        if t.isEnd || t.isPunct ";" || t.isPunct "\x7b" ||
            t.isPunct "\x7d" then none
        else if t.isPunct "(" || t.isPunct "[" then
          behindAngles window angles (brackets + 1) ts
        else if t.isPunct ")" || t.isPunct "]" then
          if brackets = 0 then none
          else behindAngles window angles (brackets - 1) ts
        else if brackets = 0 then
          if t.isOperator "&&" || t.isOperator "||" then none
          else if anglesAfter t angles = 0 then some ts
          else behindAngles window (anglesAfter t angles) brackets ts
        else behindAngles window angles brackets ts

/-- Whether a token can stand behind template arguments, in a
declaration or in an expression. -/
def followsArguments (declaration : Bool) (t : Token) : Bool :=
  match t.kind with
  | .punctuation =>
    ["(", "\x7b", ")", ";", ",", "]", "\x7d"].contains t.value
  | .operator =>
    let op := Word.canonical t.value
    ["::", "..."].contains op
      || (declaration && ["*", "&", "&&"].contains op)
      || (!declaration && ["==", "!=", "||", "?", ":"].contains op)
  | .identifier => declaration
  | .endOfFile => true
  | _ => false

/-- Whether the list begins with template arguments. -/
def opensArguments (declaration : Bool) (ts : List Token) : Bool :=
  match (significant 0 ts).2 with
  | [] => false
  | t :: ts =>
    t.isOperator "<" &&
      match behindAngles argumentWindow 1 0 ts with
      | none => false
      | some ts =>
        match (significant 0 ts).2 with
        | [] => false
        | next :: _ => followsArguments declaration next

-- ============================================================== casts

/-- How many tokens the type of a cast may have, its closing parenthesis
included. -/
def castWindow : Nat := 16

/-- Reads on in the type of a cast. The answer, at the parenthesis that
closes it, is whether the type shows itself by a keyword or by a pointer
or reference at its end, and what follows. -/
def castType (window : Nat) (typed marked : Bool) :
    List Token → Option (Bool × List Token)
  | [] => none
  | t :: ts =>
    if t.isDirective then castType window typed marked ts
    else match window with
      | 0 => none
      | window + 1 =>
        if t.kind == .keyword && Word.isType t.value then
          castType window true false ts
        else if t.isName then castType window typed false ts
        else if t.isSpelled "::" then castType window typed marked ts
        else if t.isSpelled "*" || t.isSpelled "&" || t.isSpelled "&&" then
          castType window typed true ts
        else if t.isPunct ")" then some (typed || marked, ts)
        else none

/-- The keywords with which the operand of a cast can begin. -/
def operandKeywords : List String := [
  "this", "true", "false", "nullptr", "sizeof", "new", "static_cast",
  "dynamic_cast", "const_cast", "reinterpret_cast"]

/-- The operators with which the operand of a cast can begin. -/
def operandOperators : List String :=
  ["!", "~", "-", "+", "*", "&", "++", "--", "::"]

/-- Whether the operand of a cast can begin with this token; `clear`
says that the type can be nothing but a type. Behind a mere name in
parentheses, a bracket or an operator goes on with that name. -/
def startsOperand (clear : Bool) (t : Token) : Bool :=
  match t.kind with
  | .identifier | .number | .string | .character => true
  | .keyword => operandKeywords.contains t.value
  | .punctuation => clear && (t.value == "(" || t.value == "\x7b")
  | .operator =>
    clear && operandOperators.contains (Word.canonical t.value)
  | _ => false

/-- Whether the list, which begins with a parenthesis, begins with a
cast. -/
def opensCast (ts : List Token) : Bool :=
  !(tokenAt 1 ts).isPunct ")" &&
    match castType castWindow false false (tokensFrom 1 ts) with
    | none => false
    | some (clear, ts) => startsOperand clear (tokenAt 0 ts)

-- ======================================================= declarations

/-- How far ahead a declaration is looked for. -/
def declarationWindow : Nat := 64

/-- How many tokens there are from here through the angle bracket that
closes all the open ones. -/
def angleLength (window angles : Nat) : List Token → Option Nat
  | [] => none
  | t :: ts =>
    if t.isDirective then angleLength window angles ts
    else match window with
      | 0 => none
      | window + 1 =>
        if t.isEnd then none
        else if t.kind == .operator && anglesAfter t angles == 0 then
          some 1
        else (angleLength window (anglesAfter t angles) ts).map (· + 1)

/-- The number of tokens of the template arguments at the start of the
list: none where no `<` stands, and no answer where one stands that does
not open template arguments. -/
def argumentLength (ts : List Token) : Option Nat :=
  if (tokenAt 0 ts).isSpelled "<" then
    if opensArguments true ts then
      angleLength (declarationWindow + 1) 0 ts
    else none
  else some 0

/-- Where the type name ends that begins `offset` tokens ahead. -/
def typeNameEnd (ts : List Token) (offset : Nat) : Option Nat :=
  if (tokenAt offset ts).isName then
    match argumentLength (tokensFrom (offset + 1) ts) with
    | none => none
    | some length =>
      let stop := offset + 1 + length
      if (tokenAt stop ts).isSpelled "::" then
        if stop + 1 > declarationWindow then none
        else typeNameEnd ts (stop + 1)
      else some stop
  else none
termination_by declarationWindow - offset

/-- Whether a token goes between a type and what is declared. -/
def isDeclaratorMarker (t : Token) : Bool :=
  match t.kind with
  | .operator =>
    ["*", "&", "&&", "..."].contains (Word.canonical t.value)
  | .keyword => t.value == "const" || t.value == "volatile"
  | _ => false

/-- Where the markers end that begin `offset` tokens ahead. -/
def markersEnd (ts : List Token) (offset : Nat) : Nat :=
  if isDeclaratorMarker (tokenAt offset ts) && offset ≤ declarationWindow
  then markersEnd ts (offset + 1)
  else offset
termination_by declarationWindow + 1 - offset
decreasing_by
  simp_all
  omega

/-- Whether a token can stand behind a declared name. -/
def followsDeclared (t : Token) : Bool :=
  match t.kind with
  | .punctuation =>
    [";", ",", "(", "\x7b", "[", ")"].contains t.value
  | .operator => t.value == "=" || t.value == ":"
  | _ => false

/-- Whether a type name begins the list, with the name of something of
that type behind it. -/
def opensTyped (ts : List Token) : Bool :=
  let offset := if (tokenAt 0 ts).isSpelled "::" then 1 else 0
  match typeNameEnd ts offset with
  | none => false
  | some stop =>
    let name := markersEnd ts stop
    (tokenAt name ts).isName && followsDeclared (tokenAt (name + 1) ts)

/-- Whether the list reads as a declaration: it begins with a keyword of
declarations, or with a type and a name. -/
def opensDeclaration (ts : List Token) : Bool :=
  let t := tokenAt 0 ts
  if t.kind == .keyword then Word.startsDeclaration t.value
  else (t.isName || t.isSpelled "::") && opensTyped ts

end FrontEnd.Grammar
