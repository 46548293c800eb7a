/-
Tokens that were written for a tree. A lexeme is a token without its place,
and a page says where the tokens stand that are made of lexemes; so a
rule can be run on the lexemes that a tree is written as, with others
behind them, wherever they stand.

`Page.state` is the state of a reader in front of some lexemes. The
equations below say what the single steps of rules come to in such a
state: a proof runs a rule by rewriting with them, step after step.
-/
import FrontEnd.Proofs.Course.Basic

namespace FrontEnd

namespace Written

open Grammar

-- =============================================================== lexemes

/-- A token that a grammar rule can see, without its place. -/
inductive Lexeme where
  | number (value : String)
  | operator (value : String)
  | punct (value : String)
  | keyword (value : String)
  | name (value : String)
  | string (value : String)
deriving DecidableEq, Repr

namespace Lexeme

def kind : Lexeme → TokenKind
  | number _ => .number
  | operator _ => .operator
  | punct _ => .punctuation
  | keyword _ => .keyword
  | name _ => .identifier
  | string _ => .string

def value : Lexeme → String
  | number v | operator v | punct v | keyword v | name v | string v => v

/-- The lexeme at a place. -/
def token (l : Lexeme) (place : Span × Location) : Token :=
  ⟨l.kind, l.value, place.1, place.2⟩

/-- How many groups are open behind the lexeme. -/
def depthAfter : Lexeme → Nat → Nat
  | punct v, depth =>
    if v == "(" || v == "[" || v == "\x7b" then depth + 1
    else if v == ")" || v == "]" || v == "\x7d" then depth - 1
    else depth
  | _, depth => depth

/-- Whether it is this bracket or separator. -/
def isPunct : Lexeme → String → Bool
  | punct v, w => v == w
  | _, _ => false

/-- Whether it is this keyword. -/
def isKeyword : Lexeme → String → Bool
  | keyword v, w => v == w
  | _, _ => false

/-- Whether it is an operator of exactly this spelling. -/
def isSpelled : Lexeme → String → Bool
  | operator v, w => v == w
  | _, _ => false

/-- Whether it is this operator, in whatever spelling. -/
def isOperator : Lexeme → String → Bool
  | operator v, w => Word.canonical v == w
  | _, _ => false

/-- Whether it is one of the operators, in whatever spelling. -/
def isOneOf (operators : List String) : Lexeme → Bool
  | operator v => operators.contains (Word.canonical v)
  | _ => false

/-- Whether it is a name. -/
def isName : Lexeme → Bool
  | name _ => true
  | _ => false

/-- Whether it is a string literal. -/
def isString : Lexeme → Bool
  | string _ => true
  | _ => false

variable (l : Lexeme) (place : Span × Location) (w : String)

@[simp]
theorem kind_token : (l.token place).kind = l.kind := rfl

@[simp]
theorem value_token : (l.token place).value = l.value := rfl

@[simp]
theorem isPunct_token : (l.token place).isPunct w = l.isPunct w := by
  cases l <;> rfl

@[simp]
theorem isKeyword_token : (l.token place).isKeyword w = l.isKeyword w := by
  cases l <;> rfl

@[simp]
theorem isSpelled_token : (l.token place).isSpelled w = l.isSpelled w := by
  cases l <;> rfl

@[simp]
theorem isOperator_token :
    (l.token place).isOperator w = l.isOperator w := by
  cases l <;> rfl

@[simp]
theorem isOneOf_token (operators : List String) :
    Grammar.isOneOf operators (l.token place) = l.isOneOf operators := by
  cases l <;> rfl

@[simp]
theorem isName_token : (l.token place).isName = l.isName := by
  cases l <;> rfl

@[simp]
theorem isString_token : (l.token place).isString = l.isString := by
  cases l <;> rfl

attribute [simp] kind value isPunct isKeyword isSpelled isOperator isOneOf
  isName isString depthAfter

theorem depthAfter_token (depth : Nat) :
    Grammar.depthAfter (l.token place) depth = l.depthAfter depth := by
  cases l <;> rfl

@[simp]
theorem isDirective_token : (l.token place).isDirective = false := by
  cases l <;> rfl

@[simp]
theorem isEnd_token : (l.token place).isEnd = false := by
  cases l <;> rfl

end Lexeme

-- ================================================================= pages

/-- Where written tokens stand, and what comes behind all of them: nothing
or a mark of the end. -/
structure Page where
  place : Nat → Span × Location
  ending : List Token
  ended : ∀ t ∈ ending.head?, t.isEnd = true

namespace Page

/-- Where the token stands that has the index. -/
def locate (page : Page) (index : Nat) : Location := (page.place index).2

/-- The tokens of lexemes, the first one with the given index. -/
def lay (page : Page) (index : Nat) : List Lexeme → List Token
  | [] => page.ending
  | l :: ls => l.token (page.place index) :: page.lay (index + 1) ls

variable (page : Page)

/-- In front of lexemes, with groups open and without any error so far. -/
def state (index depth : Nat) (ls : List Lexeme) : State :=
  { rest := page.lay index ls, position := index
    size := index + ls.length + page.ending.length, depth := depth
    phase := .normal, recovered := false, errors := #[] }

variable (index depth : Nat) (l l' : Lexeme) (ls : List Lexeme)

theorem lay_cons : page.lay index (l :: ls)
    = l.token (page.place index) :: page.lay (index + 1) ls := rfl

theorem significant_lay :
    significant index (page.lay index (l :: ls))
      = (index, page.lay index (l :: ls)) := by
  unfold lay significant
  rw [l.isDirective_token]
  rfl

@[simp]
theorem mark_state :
    (page.state index depth (l :: ls)).mark
      = ⟨index, page.locate index⟩ := by
  unfold State.mark state
  rw [significant_lay]
  rfl

@[simp]
theorem peek_state :
    (page.state index depth (l :: ls)).peek
      = l.token (page.place index) := by
  unfold State.peek state
  rw [significant_lay]
  rfl

@[simp]
theorem tokenAt_zero_state :
    tokenAt 0 (page.state index depth (l :: ls)).rest
      = l.token (page.place index) := by
  rw [← State.peek_eq_tokenAt, peek_state]

@[simp]
theorem tokenAt_one_state :
    tokenAt 1 (page.state index depth (l :: l' :: ls)).rest
      = l'.token (page.place (index + 1)) := by
  unfold state lay
  rw [tokenAt, l.isDirective_token]
  exact page.tokenAt_zero_state (index + 1) depth l' ls

/-- Nothing is left but the ending. -/
theorem peek_state_nil : (page.state index depth []).peek.isEnd = true := by
  unfold State.peek state lay
  have hended := page.ended
  cases h : page.ending with
  | nil => rfl
  | cons t ts =>
    rw [h] at hended
    have hend := hended t rfl
    unfold significant
    have hdirective : t.isDirective = false := by grind
    rw [hdirective]
    exact hend

@[simp]
theorem advance_state :
    (page.state index depth (l :: ls)).advance
      = page.state (index + 1) (l.depthAfter depth) ls := by
  unfold State.advance state
  rw [significant_lay, lay_cons]
  dsimp only
  rw [l.isEnd_token, List.length_cons, if_neg nofun,
    Nat.add_right_comm index 1, ← Nat.add_assoc,
    ← l.depthAfter_token (page.place index)]

end Page

-- ========================================================== single steps

section
variable {α β : Type} (s : State)

@[simp]
theorem run_mark (f : Mark → Parser β) :
    (mark >>= f) s = f s.mark s := rfl

@[simp]
theorem run_peek (f : Token → Parser β) :
    (peek >>= f) s = f s.peek s := rfl

@[simp]
theorem run_peekAt (n : Nat) (f : Token → Parser β) :
    (peekAt n >>= f) s = f (tokenAt n s.rest) s := rfl

@[simp]
theorem run_ahead (q : List Token → Bool) (f : Bool → Parser β) :
    (ahead q >>= f) s = f (q s.rest) s := rfl

@[simp]
theorem run_openGroups (f : Nat → Parser β) :
    (openGroups >>= f) s = f s.depth s := rfl

@[simp]
theorem run_check (q : Token → Bool) (f : Bool → Parser β) :
    (check q >>= f) s = f (q s.peek) s := rfl

@[simp]
theorem run_advance (f : Unit → Parser β) :
    (advance >>= f) s = f () s.advance := rfl

@[simp]
theorem pure_apply (a : α) : (pure a : Parser α) s = .ok a s := rfl

@[simp]
theorem finish_apply (kind : NodeKind) (m : Mark) (ns : List Node) :
    finish kind m ns s = .ok (s.node kind m ns) s := rfl

@[simp]
theorem map_advance (f : Unit → β) :
    (f <$> advance) s = .ok (f ()) s.advance := rfl

@[simp]
theorem map_finish (kind : NodeKind) (m : Mark) (ns : List Node)
    (f : Node → β) :
    (f <$> finish kind m ns) s = .ok (f (s.node kind m ns)) s := rfl

variable {s}

theorem run_bind {p : Parser α} {f : α → Parser β} {a : α} {s' : State}
    (h : p s = .ok a s') : (p >>= f) s = f a s' := by
  rw [bind_eq, h]

@[simp]
theorem run_map {p : Parser α} {f : α → β} {a : α} {s' : State}
    (h : p s = .ok a s') : (f <$> p) s = .ok (f a) s' := by
  rw [← bind_pure_comp, run_bind h]
  rfl

@[simp]
theorem run_accept (q : Token → Bool) (f : Bool → Parser β) :
    (accept q >>= f) s
      = if q s.peek then f true s.advance else f false s := by
  rw [accept_eq, bind_assoc, run_check]
  split <;> rfl

@[simp]
theorem run_expect (q : Token → Bool) (wanted : String)
    (f : Unit → Parser β) : (expect q wanted >>= f) s
      = if q s.peek then f () s.advance
        else .error ⟨.expected wanted, s.peek⟩ s := by
  rw [expect_eq, bind_assoc, run_check]
  split <;> rfl

@[simp]
theorem map_expect (q : Token → Bool) (wanted : String) (f : Unit → β) :
    (f <$> expect q wanted) s
      = if q s.peek then .ok (f ()) s.advance
        else .error ⟨.expected wanted, s.peek⟩ s := by
  rw [← bind_pure_comp, run_expect]
  rfl

/-- Another round of a loop, with fewer lexemes to come. -/
theorem loop_again {page : Page} {round : α → Parser (Round α β)}
    {a a' : α} {i j d d' : Nat} {ls ls' : List Lexeme}
    (h : round a (page.state i d ls)
      = .ok (.again a') (page.state j d' ls'))
    (hmoved : i < j) (hlength : j + ls'.length = i + ls.length) :
    loop round a (page.state i d ls)
      = loop round a' (page.state j d' ls') := by
  have hsize : (page.state i d ls).size = (page.state j d' ls').size := by
    show i + ls.length + _ = j + ls'.length + _
    rw [hlength]
  have hwithin : j ≤ (page.state i d ls).size := by
    rw [hsize]
    show j ≤ j + ls'.length + _
    omega
  rw [loop_eq, h]
  dsimp only
  rw [if_pos ⟨hmoved, hwithin⟩, hsize]
  rfl

theorem loop_done {round : α → Parser (Round α β)} {a : α} {b : β}
    {s' : State} (h : round a s = .ok (.done b) s') :
    loop round a s = .ok b s' := by
  rw [loop_eq, h]

end

end Written

end FrontEnd
