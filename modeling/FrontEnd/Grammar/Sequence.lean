/-
Sequences of items, and the recovery from errors in them.

Declarations of a file or a namespace, members of a class and statements
of a block come in sequences, and these are the only places where an
error stops on its way up. A strict reader does not stop it there
either. A tolerant one reports it, skips to where the next item can
begin, and goes on; further errors are not reported until an item is
read again.

Skipping goes by the number of open groups. It ends behind the semicolon
or the closing brace that ends the item, in front of the brace that ends
the sequence, or in front of a directive of the sequence.
-/
import FrontEnd.Grammar.Parser

namespace FrontEnd

/-- What to do about syntax errors. -/
inductive Policy where
  /-- Give up at the first one. -/
  | strict
  /-- Report it and go on behind it. -/
  | tolerant
deriving DecidableEq, Repr, Inhabited

namespace Grammar

-- ========================================================= directives

/-- Takes the directives at the front of the list as nodes, in front of
nodes done before, last one first. -/
def directives (recovered : Bool) (done : List Node) (index : Nat) :
    List Token → List Node × Nat × List Token
  | [] => (done, index, [])
  | t :: ts =>
    if t.isDirective then
      let node : Node :=
        { kind := .preprocessorDirective, first := index
          stop := index + 1, location := t.location
          recovered := recovered, children := [] }
      directives recovered (node :: done) (index + 1) ts
    else (done, index, t :: ts)

/-- Reads the directives that come next as items of a sequence. -/
def State.takeDirectives (s : State) (done : List Node) :
    List Node × State :=
  let (done, position, rest) :=
    directives s.recovered done s.position s.rest
  (done, { s with rest := rest, position := position })

-- =========================================================== recovery

/-- Skips to where a sequence can go on that began with `base` groups
open. The answer is index, open groups and tokens from there on. -/
def resume (base index depth : Nat) :
    List Token → Nat × Nat × List Token
  | [] => (index, depth, [])
  | t :: ts =>
    if t.isEnd then (index, depth, t :: ts)
    else if t.isDirective then
      if depth ≤ base then (index, depth, t :: ts)
      else resume base (index + 1) depth ts
    else if depth ≤ base then
      if t.isPunct ";" then (index + 1, depth, ts)
      else if t.isPunct "\x7d" then (index, depth, t :: ts)
      else if t.closes then resume base (index + 1) depth ts
      else resume base (index + 1) (depthAfter t depth) ts
    else if t.isPunct "\x7d" && depth == base + 1 then
      (index + 1, depth - 1, ts)
    else resume base (index + 1) (depthAfter t depth) ts

/-- Reads a token if none was read since `position`. -/
def State.pass (s : State) (position : Nat) : State :=
  if s.position ≤ position then s.advance else s

/-- The state behind a good item. -/
def State.settle (s : State) : State :=
  if s.phase = .recovering then { s with phase := .normal } else s

/-- The state where the sequence goes on after an error. It began with
`base` groups open. -/
def State.recover (s : State) (base : Nat) (e : SyntaxError) : State :=
  let (position, depth, rest) := resume base s.position s.depth s.rest
  { s with
    rest := rest, position := position, depth := depth
    phase := .recovering, recovered := true
    errors := if s.phase = .normal then s.errors.push e else s.errors }

-- ========================================================== sequences

/-- What came of a sequence: its items, the state behind them, and the
error that ended it if one did. -/
structure Gathered where
  items : List Node
  state : State
  error : Option SyntaxError

/-- Whether the token ends a sequence that goes on to `closer`, or to
the end of the text. -/
def endsSequence (closer : Option String) (t : Token) : Bool :=
  t.isEnd || closer.any t.isPunct

/-- Reads items up to the closer, behind those that are done (the last
one first), out of `bound` tokens altogether. -/
def gather (policy : Policy) (closer : Option String)
    (item : Parser Node) (bound : Nat) (done : List Node)
    (start : State) : Gathered :=
  let (done, s) := start.takeDirectives done
  if endsSequence closer s.peek then ⟨done.reverse, s, none⟩
  else
    match item s with
    | .ok node after =>
      let after := after.settle.pass s.position
      if start.position < after.position ∧ after.position ≤ bound then
        gather policy closer item bound (node :: done) after
      else ⟨(node :: done).reverse, after, none⟩
    | .error e after =>
      match policy with
      | .strict => ⟨done.reverse, after, some e⟩
      | .tolerant =>
        let after := (after.recover s.depth e).pass s.position
        if start.position < after.position ∧ after.position ≤ bound then
          gather policy closer item bound done after
        else ⟨done.reverse, after, none⟩
termination_by bound - start.position
decreasing_by
  all_goals
    rename_i h
    exact Nat.sub_lt_sub_left (Nat.lt_of_lt_of_le h.1 h.2) h.1

/-- The items up to a closing bracket, which is not read. -/
def sequence (policy : Policy) (closer : String) (item : Parser Node) :
    Parser (List Node) := fun s =>
  let gathered := gather policy (some closer) item s.size [] s
  match gathered.error with
  | none => .ok gathered.items gathered.state
  | some e => .error e gathered.state

end Grammar

end FrontEnd
