/-
Expressions are read as they are written.

`Expression.Reads` says of each rank what its rule does with the lexemes
of an expression and others behind them, and `Expression.reads` that this
is so: there is a lemma for each constructor, and the induction over the
tree puts them together. An expression with postfix operators goes on
with the operators behind it, whatever they are; at the other ranks the
next lexeme must not go on with the expression, which is what
`Lexeme.ends`, `Lexeme.endsRight` and `Lexeme.endsList` ask for.
-/
import FrontEnd.Proofs.Word
import FrontEnd.Proofs.Written.Expression

namespace FrontEnd.Written

open Grammar

/-- The grammar with levels of nesting to spare. -/
abbrev nested (policy : Policy) (room : Nat) : Inner :=
  ⟨policy, room, parse policy room⟩

variable {page : Page} {policy : Policy} {g : Inner}
variable {room i j d n : Nat} {m : Mark} {l : Lexeme} {ls : List Lexeme}

-- ========================================================= first lexemes

/-- Whether an expression can begin with the lexeme. -/
def Lexeme.opens : Lexeme → Bool
  | .number _ => true
  | .punct v => v == "("
  | .operator v => unaryOperators.contains (Word.canonical v)
  | _ => false

/-- An expression begins with a lexeme that opens one. -/
theorem Expression.opens : {r : Rank} → (e : Expression r) →
    ∃ l ls, e.write = l :: ls ∧ l.opens = true
  | _, .number v => ⟨_, _, rfl, rfl⟩
  | _, .parens inner => ⟨_, _, rfl, rfl⟩
  | _, .step e _ _ | _, .call e | _, .callWith e _ | _, .subscript e _
  | _, .joined e _ _ _ _ | _, .assigns e _ _ _ _ | _, .chooses e _ _ _
  | _, .several e _ => by
    obtain ⟨l, ls, hwrite, hopens⟩ := e.opens
    exact ⟨l, _, by rw [write, hwrite, List.cons_append], hopens⟩
  | _, .plain e | _, .tight e | _, .simple e | _, .single e => e.opens
  | _, .unary op h e => by
    refine ⟨_, _, rfl, ?_⟩
    simpa [Lexeme.opens] using h

/-- No type of a cast begins an expression. -/
theorem Expression.castType_write : {r : Rank} → (e : Expression r) →
    (page : Page) → (window i : Nat) → (typed marked : Bool) →
    (ls : List Lexeme) →
    castType window typed marked (page.lay i (e.write ++ ls)) = none
  | _, .number v, page, window, i, typed, marked, ls => by
    rw [write, List.singleton_append, Page.lay_cons]
    cases window <;> simp [castType]
  | _, .parens inner, page, window, i, typed, marked, ls => by
    rw [write, List.cons_append, Page.lay_cons]
    cases window <;> simp [castType]
  | _, .step e _ _, page, window, i, typed, marked, ls
  | _, .call e, page, window, i, typed, marked, ls
  | _, .callWith e _, page, window, i, typed, marked, ls
  | _, .subscript e _, page, window, i, typed, marked, ls
  | _, .joined e _ _ _ _, page, window, i, typed, marked, ls
  | _, .assigns e _ _ _ _, page, window, i, typed, marked, ls
  | _, .chooses e _ _ _, page, window, i, typed, marked, ls
  | _, .several e _, page, window, i, typed, marked, ls => by
    rw [write, List.append_assoc]
    exact e.castType_write page window i typed marked _
  | _, .plain e, page, window, i, typed, marked, ls
  | _, .tight e, page, window, i, typed, marked, ls
  | _, .simple e, page, window, i, typed, marked, ls
  | _, .single e, page, window, i, typed, marked, ls =>
    e.castType_write page window i typed marked ls
  | _, .unary op h e, page, window, i, typed, marked, ls => by
    have hname : op ≠ "::" := by
      rintro rfl
      revert h
      decide
    rw [write, List.cons_append, Page.lay_cons]
    cases window with
    | zero => simp [castType]
    | succ window => simp [castType, hname, e.castType_write]

section
variable {r : Rank} (e : Expression r)

@[simp]
theorem Expression.mark_state :
    (page.state i d (e.write ++ ls)).mark = ⟨i, page.locate i⟩ := by
  obtain ⟨l, _, hwrite, -⟩ := e.opens
  rw [hwrite, List.cons_append, Page.mark_state]

@[simp]
theorem Expression.peek_isKeyword (w : String) :
    (page.state i d (e.write ++ ls)).peek.isKeyword w = false := by
  obtain ⟨l, _, hwrite, hopens⟩ := e.opens
  rw [hwrite, List.cons_append, Page.peek_state]
  cases l <;> simp_all [Lexeme.opens]

@[simp]
theorem Expression.peek_isPunct {w : String} (hw : "(" ≠ w) :
    (page.state i d (e.write ++ ls)).peek.isPunct w = false := by
  obtain ⟨l, _, hwrite, hopens⟩ := e.opens
  rw [hwrite, List.cons_append, Page.peek_state]
  cases l <;> simp_all [Lexeme.opens]

end

-- =========================================================== last lexemes

/-- The operators that go on with an operand in front of them. -/
def trailingOperators : List String := [".", "->", "++", "--", "..."]

/-- Whether the lexeme goes on with an operand in front of it. -/
def Lexeme.isPostfix : Lexeme → Bool
  | .punct v => ["(", "[", "\x7b"].contains v
  | .operator v => trailingOperators.contains v
  | _ => false

/-- Whether operands of operators of the levels end in front of the
lexeme. -/
def Lexeme.ends (levels : List (List String)) (l : Lexeme) : Bool :=
  !l.isPostfix && levels.all fun level => !l.isOneOf level

/-- Whether chains of assignments and conditionals end in front of the
lexeme. -/
def Lexeme.endsRight (l : Lexeme) : Bool :=
  l.ends binaryLevels && !l.isOperator "?"
    && !l.isOneOf assignmentOperators

/-- Whether any expression ends in front of the lexeme. -/
def Lexeme.endsList (l : Lexeme) : Bool :=
  l.endsRight && !l.isPunct ","

/-- An operator ends the operands of others. -/
theorem ends_operator {levels : List (List String)} {op : String}
    (htrailing : Word.canonical op ∉ trailingOperators)
    (hlevels : ∀ level ∈ levels, Word.canonical op ∉ level) :
    (Lexeme.operator op).ends levels = true := by
  have hcanonical : ∀ p ∈ trailingOperators, Word.canonical p = p := by
    decide
  have hop : op ∉ trailingOperators :=
    fun h => htrailing (by rwa [hcanonical op h])
  simpa [Lexeme.ends, Lexeme.isPostfix, hop] using hlevels

/-- An operator of a level ends the operands of the tighter ones. -/
theorem ends_of_level {level : List String} {levels : List (List String)}
    (h : level :: levels <:+ binaryLevels) {op : String}
    (hop : Word.canonical op ∈ level) :
    (Lexeme.operator op).ends levels = true := by
  have htrailing : ∀ level ∈ binaryLevels, ∀ op ∈ level,
      op ∉ trailingOperators := by decide
  have hapart : binaryLevels.Pairwise fun a b => ∀ op ∈ a, op ∉ b := by
    decide
  have hcons := List.pairwise_cons.1 (hapart.sublist h.sublist)
  refine ends_operator ?_ fun level' h' => hcons.1 level' h' _ hop
  exact htrailing level (h.subset List.mem_cons_self) _ hop

/-- An operator of assignment ends the target in front of it. -/
theorem ends_of_assignment {op : String}
    (hop : Word.canonical op ∈ assignmentOperators) :
    (Lexeme.operator op).ends binaryLevels = true := by
  have hapart : ∀ op ∈ assignmentOperators, op ∉ trailingOperators
      ∧ ∀ level ∈ binaryLevels, op ∉ level := by decide
  exact ends_operator (hapart _ hop).1 (hapart _ hop).2

-- ================================================================ steps

@[simp]
theorem node_state {kind : NodeKind} {children : List Node}
    (h : j = i + n) :
    (page.state j d ls).node kind ⟨i, page.locate i⟩ children
      = nodeOf page.locate kind i n children := by
  subst h
  unfold State.node nodeOf Page.state
  simp

/-- One more lexeme of an operand with postfix operators. -/
theorem postfix_again {object object' : Node} {ls' : List Lexeme}
    {d' : Nat}
    (h : postfixRound g m object (page.state i d ls)
      = .ok (.again object') (page.state j d' ls'))
    (hmoved : i < j) (hlength : j + ls'.length = i + ls.length) :
    postfixOperators g m object (page.state i d ls)
      = postfixOperators g m object' (page.state j d' ls') :=
  loop_again h hmoved hlength

/-- An operand ends where nothing goes on with it. -/
theorem postfix_done {object : Node} (h : l.isPostfix = false) :
    postfixOperators g m object (page.state i d (l :: ls))
      = .ok object (page.state i d (l :: ls)) := by
  refine loop_done ?_
  unfold postfixRound
  cases l <;> simp_all [Lexeme.isPostfix, trailingOperators]

/-- Where an expression begins, initializers in braces do not. -/
theorem initializer_eq {s : State} (h : s.peek.isPunct "\x7b" = false) :
    initializer g s = g.parse .assignment s := by
  unfold initializer
  rw [run_check, h]
  rfl

-- =========================================================== what is read

/-- Whether the innermost operator that waits is an assignment. -/
def hasTargets : List Waiting → Bool
  | .assigns _ _ :: _ => true
  | _ => false

/-- Whether the innermost operator that waits is a conditional. -/
def hasChoices : List Waiting → Bool
  | .chooses _ _ :: _ => true
  | _ => false

/-- An expression of its rank is read as it is written. -/
def Expression.Reads (page : Page) (policy : Policy) :
    {r : Rank} → Expression r → Prop
  | .suffixed, e => ∀ room i d ls, e.levels 0 ≤ room →
    postfixExpression (nested policy room) (page.state i d (e.write ++ ls))
      = postfixOperators (nested policy room) ⟨i, page.locate i⟩
        (e.node page.locate i) (page.state (i + e.length) d ls)
  | .binary levels, e => levels <:+ binaryLevels →
    ∀ room i d l ls, e.levels 0 ≤ room → l.ends levels = true →
    binary (nested policy room) levels
        (page.state i d (e.write ++ l :: ls))
      = .ok (e.node page.locate i) (page.state (i + e.length) d (l :: ls))
  | .right a c, e => ∀ room waiting i d l ls,
    e.levels waiting.length ≤ room → l.endsRight = true →
    (a = true → hasTargets waiting = false) →
    (c = true → hasChoices waiting = false) →
    loop (rightRound (nested policy room) true) waiting
        (page.state i d (e.write ++ l :: ls))
      = closeAll (e.node page.locate i) waiting
        (page.state (i + e.length) d (l :: ls))
  | .list, e => ∀ room i d l ls, e.levels 0 ≤ room → l.endsList = true →
    expression (nested policy room) (page.state i d (e.write ++ l :: ls))
      = .ok (e.node page.locate i) (page.state (i + e.length) d (l :: ls))

/-- A round of items with commas between them. -/
def itemRound (item : Parser Node) (done : List Node) :
    Parser (Round (List Node) (List Node)) := do
  let done := (← item) :: done
  if ← accept (·.isPunct ",") then return .again done
  else return .done done.reverse

theorem commaSeparated_eq (item : Parser Node) :
    commaSeparated item = loop (itemRound item) [] := rfl

/-- A round of operators of a level. -/
def operandRound (g : Inner) (level : List String)
    (levels : List (List String)) (done : List Node) :
    Parser (Round (List Node) (List Node)) := do
  if ← accept (isOneOf level) then
    return .again ((← binary g levels) :: done)
  else return .done done

theorem binary_cons (level : List String) (levels : List (List String)) :
    binary g (level :: levels) = (do
      let m ← mark
      let first ← binary g levels
      let others ← loop (operandRound g level levels) []
      if others.isEmpty then return first
      else finish .binaryExpression m (first :: others.reverse)) := rfl

/-- A rule that does with an expression what that is read by, unless it
meets initializers in braces or a pack. -/
def ReadsItems (g : Inner) (item : Parser Node) : Prop :=
  ∀ s s' n, s.peek.isPunct "\x7b" = false →
    s'.peek.isOperator "..." = false →
    g.parse .assignment s = .ok n s' → item s = .ok n s'

/-- Parts in a row are read as they are written. -/
def Parts.Reads (page : Page) (policy : Policy) :
    {k : Series} → Parts k → Prop
  | .items, p => ∀ room item done i d l ls,
    ReadsItems (nested policy room) item → p.levels ≤ room →
    l.endsList = true →
    loop (itemRound item) done (page.state i d (p.write ++ l :: ls))
      = .ok (done.reverse ++ p.nodes page.locate i)
        (page.state (i + p.length) d (l :: ls))
  | .operands level levels, p => level :: levels <:+ binaryLevels →
    ∀ room done i d l ls, p.levels ≤ room →
    l.ends (level :: levels) = true →
    loop (operandRound (nested policy room) level levels) done
        (page.state i d (p.write ++ l :: ls))
      = .ok ((p.nodes page.locate i).reverse ++ done)
        (page.state (i + p.length) d (l :: ls))
  | .targets, p => ∀ room m done waiting i d l ls, p.levels ≤ room →
    waiting.length + 1 < room → l.opens = true →
    loop (rightRound (nested policy room) true)
        (.assigns m done :: waiting) (page.state i d (p.write ++ l :: ls))
      = loop (rightRound (nested policy room) true)
        (.assigns m ((p.nodes page.locate i).reverse ++ done) :: waiting)
        (page.state (i + p.length) d (l :: ls))
  | .choices, p => ∀ room m done waiting i d ls, p.levels ≤ room →
    waiting.length + 1 < room →
    loop (rightRound (nested policy room) true)
        (.chooses m done :: waiting) (page.state i d (p.write ++ ls))
      = loop (rightRound (nested policy room) true)
        (.chooses m ((p.nodes page.locate i).reverse ++ done) :: waiting)
        (page.state (i + p.length) d ls)

variable {r : Rank} {k : Series}

-- ============================================== operands and their postfix

theorem number_reads (v : String) :
    (Expression.number v).Reads page policy := by
  intro room i d ls _
  have hprimary : primary (nested policy room)
      (page.state i d (.number v :: ls))
      = .ok (nodeOf page.locate .literal i 1 [])
        (page.state (i + 1) d ls) := by
    unfold primary
    simp
  unfold postfixExpression
  simp only [Expression.write, List.singleton_append, run_mark,
    Page.mark_state, run_bind hprimary]
  rfl

theorem parens_reads {inner : Expression .list}
    (h : inner.Reads page policy) :
    (Expression.parens inner).Reads page policy := by
  intro room i d ls hlevels
  have hstop : i + 1 + inner.length + 1
      = i + (Expression.parens inner).length := by
    simp [Expression.length, Expression.write]
    omega
  have hinner := h room (i + 1) (d + 1) (.punct ")") ls hlevels
    (by decide)
  have hprimary : primary (nested policy room)
      (page.state i d ((Expression.parens inner).write ++ ls))
      = .ok ((Expression.parens inner).node page.locate i)
        (page.state (i + (Expression.parens inner).length) d ls) := by
    unfold primary
    simp [Expression.write, run_bind hinner, expectPunct, hstop]
    rfl
  unfold postfixExpression
  rw [run_mark, Expression.mark_state, run_bind hprimary]

theorem step_reads {e : Expression .suffixed} {op : String}
    (hop : op = "++" ∨ op = "--") (h : e.Reads page policy) :
    (Expression.step e op hop).Reads page policy := by
  intro room i d ls hlevels
  have hstop : i + e.length + 1
      = i + (Expression.step e op hop).length := by
    simp [Expression.length, Expression.write]
    omega
  rw [Expression.write, List.append_assoc, h room i d _ hlevels, ← hstop]
  refine postfix_again ?_ (by omega) (by simp; omega)
  unfold postfixRound
  rcases hop with rfl | rfl
  · simp [hstop]
    rfl
  · simp [hstop]
    rfl

theorem call_reads {callee : Expression .suffixed}
    (h : callee.Reads page policy) :
    (Expression.call callee).Reads page policy := by
  intro room i d ls hlevels
  have hstop : i + callee.length + 1 + 1
      = i + (Expression.call callee).length := by
    simp [Expression.length, Expression.write]
    omega
  rw [Expression.write, List.append_assoc, h room i d _ hlevels, ← hstop]
  refine postfix_again ?_ (by omega) (by simp; omega)
  unfold postfixRound arguments
  simp [expectPunct, hstop]
  rfl

theorem subscript_reads {object : Expression .suffixed}
    {index : Expression .list} (h : object.Reads page policy)
    (hindex : index.Reads page policy) :
    (Expression.subscript object index).Reads page policy := by
  intro room i d ls hlevels
  obtain ⟨hlevels, hlevels'⟩ := Nat.max_le.1 hlevels
  have hstop : i + object.length + 1 + index.length + 1
      = i + (Expression.subscript object index).length := by
    simp [Expression.length, Expression.write]
    omega
  have hread := hindex room (i + object.length + 1) (d + 1) (.punct "]") ls
    hlevels' (by decide)
  have hinner : initializerOrExpression (nested policy room)
      (page.state (i + object.length + 1) (d + 1)
        (index.write ++ .punct "]" :: ls))
      = .ok (index.node page.locate (i + object.length + 1))
        (page.state (i + object.length + 1 + index.length) (d + 1)
          (.punct "]" :: ls)) := by
    unfold initializerOrExpression
    simp [hread]
  rw [Expression.write, List.append_assoc, h room i d _ hlevels, ← hstop]
  refine postfix_again ?_ (by omega)
    (by simp [Expression.length]; omega)
  unfold postfixRound
  simp [run_bind hinner, expectPunct, hstop]
  rfl

-- ========================================================= unary operators

/-- Without a prefix operator a cast expression is a postfix one. -/
theorem castExpression_write : {r : Rank} → (e : Expression r) →
    r = .suffixed → (page : Page) → (i d : Nat) → (ls : List Lexeme) →
    castExpression g (page.state i d (e.write ++ ls))
      = postfixExpression g (page.state i d (e.write ++ ls))
  | _, .number v, _, page, i, d, ls => by
    unfold castExpression
    simp [Expression.write]
  | _, .parens inner, _, page, i, d, ls => by
    have hopens : opensCast (page.state i d
        ((Expression.parens inner).write ++ ls)).rest = false := by
      have hbehind (ts : List Token) : tokensFrom 0 ts = ts := by
        cases ts <;> rfl
      unfold opensCast Page.state
      simp [Expression.write, Page.lay_cons, tokensFrom, hbehind,
        inner.castType_write]
    unfold castExpression
    simp [Expression.write] at hopens ⊢
    simp [hopens]
  | _, .step e _ _, _, page, i, d, ls | _, .call e, _, page, i, d, ls
  | _, .callWith e _, _, page, i, d, ls
  | _, .subscript e _, _, page, i, d, ls => by
    rw [Expression.write, List.append_assoc]
    exact castExpression_write e rfl page i d _

theorem plain_reads {e : Expression .suffixed} (h : e.Reads page policy) :
    (Expression.plain e).Reads page policy := by
  intro _ room i d l ls hlevels hl
  have hends : l.isPostfix = false := by
    simp_all [Lexeme.ends]
  unfold binary
  rw [Expression.write, castExpression_write e rfl, h room i d _ hlevels,
    postfix_done hends]
  rfl

theorem unary_reads {op : String}
    (hop : Word.canonical op ∈ unaryOperators)
    {e : Expression (.binary [])} (h : e.Reads page policy) :
    (Expression.unary op hop e).Reads page policy := by
  intro hlevel room i d l ls hlevels hl
  obtain ⟨room, rfl⟩ : ∃ below, room = below + 1 :=
    Nat.exists_eq_add_one_of_ne_zero (by
      have : e.levels 0 + 1 ≤ room := hlevels
      omega)
  have hstop : i + 1 + e.length = i + (Expression.unary op hop e).length := by
    simp [Expression.length, Expression.write]
    omega
  have hread : (nested policy (room + 1)).parse .operand
      (page.state (i + 1) d (e.write ++ l :: ls))
      = .ok (e.node page.locate (i + 1))
        (page.state (i + 1 + e.length) d (l :: ls)) :=
    h hlevel room (i + 1) d l ls (Nat.le_of_succ_le_succ hlevels) hl
  unfold binary castExpression unary
  simp [Expression.write, hop, run_bind hread, hstop]
  rfl

-- ======================================================== binary operators

/-- Behind operands comes an operator or what follows them all; either
ends the operand in front of it. -/
theorem Parts.operands_ends {level : List String}
    {levels : List (List String)} (p : Parts (.operands level levels))
    (hlevels : level :: levels <:+ binaryLevels)
    (hl : l.ends (level :: levels) = true) (ls : List Lexeme) :
    ∃ l' ls', p.write ++ l :: ls = l' :: ls' ∧ l'.ends levels = true := by
  cases p with
  | noOperand =>
    refine ⟨l, ls, rfl, ?_⟩
    simp_all [Lexeme.ends]
  | operand op hop e rest => exact ⟨_, _, rfl, ends_of_level hlevels hop⟩

theorem noOperand_reads {level : List String}
    {levels : List (List String)} :
    (.noOperand : Parts (.operands level levels)).Reads page policy := by
  intro _ room done i d l ls _ hl
  refine loop_done ?_
  unfold operandRound
  simp_all [Lexeme.ends, Parts.write, Parts.nodes, Parts.length]

/-- An operator of a level and the operand behind it. -/
theorem operand_again {level : List String} {levels : List (List String)}
    (hlevels : level :: levels <:+ binaryLevels) {op : String}
    (hop : Word.canonical op ∈ level) {e : Expression (.binary levels)}
    (h : e.Reads page policy) (hroom : e.levels 0 ≤ room)
    (hl : l.ends levels = true) (done : List Node) :
    loop (operandRound (nested policy room) level levels) done
        (page.state i d (.operator op :: (e.write ++ l :: ls)))
      = loop (operandRound (nested policy room) level levels)
        (e.node page.locate (i + 1) :: done)
        (page.state (i + 1 + e.length) d (l :: ls)) := by
  have hread := h ((List.suffix_cons level levels).trans hlevels) room
    (i + 1) d l ls hroom hl
  refine loop_again ?_ (by omega) (by simp [Expression.length]; omega)
  unfold operandRound
  simp [hop, run_map hread]

theorem operand_reads {level : List String} {levels : List (List String)}
    {op : String} (hop : Word.canonical op ∈ level)
    {e : Expression (.binary levels)} (h : e.Reads page policy)
    {rest : Parts (.operands level levels)}
    (hrest : rest.Reads page policy) :
    (Parts.operand op hop e rest).Reads page policy := by
  intro hlevels room done i d l ls hroom hl
  obtain ⟨hroom, hroom'⟩ := Nat.max_le.1 hroom
  obtain ⟨l', ls', hnext, hends⟩ := rest.operands_ends hlevels hl ls
  have hread := hrest hlevels room (e.node page.locate (i + 1) :: done)
    (i + 1 + e.length) d l ls hroom' hl
  rw [Parts.write, List.cons_append, List.append_assoc, hnext,
    operand_again hlevels hop h hroom hends, ← hnext, hread]
  have hstop : i + 1 + e.length + rest.length
      = i + (Parts.operand op hop e rest).length := by
    simp [Expression.length, Parts.length, Parts.write]
    omega
  rw [hstop]
  simp [Parts.nodes]

theorem tight_reads {level : List String} {levels : List (List String)}
    {e : Expression (.binary levels)} (h : e.Reads page policy) :
    (.tight e : Expression (.binary (level :: levels))).Reads page
      policy := by
  intro hlevels room i d l ls hroom hl
  have hends : l.ends levels = true := by
    simp_all [Lexeme.ends]
  have hread := h ((List.suffix_cons level levels).trans hlevels) room i d
    l ls hroom hends
  have hnone : (.noOperand : Parts (.operands level levels)).Reads page
      policy := noOperand_reads
  have hothers := hnone hlevels room [] (i + e.length) d l ls
    (Nat.zero_le _) hl
  rw [Parts.write, List.nil_append] at hothers
  rw [binary_cons, run_mark, Expression.write, e.mark_state,
    run_bind hread, run_bind hothers]
  rfl

theorem joined_reads {level : List String} {levels : List (List String)}
    {first : Expression (.binary levels)} {op : String}
    (hop : Word.canonical op ∈ level)
    {second : Expression (.binary levels)}
    {others : Parts (.operands level levels)}
    (hfirst : first.Reads page policy) (hsecond : second.Reads page policy)
    (hothers : others.Reads page policy) :
    (Expression.joined first op hop second others).Reads page policy := by
  intro hlevels room i d l ls hroom hl
  obtain ⟨hroom, hroom'⟩ := Nat.max_le.1 hroom
  have hread := hfirst ((List.suffix_cons level levels).trans hlevels) room
    i d (.operator op) (second.write ++ (others.write ++ l :: ls)) hroom
    (ends_of_level hlevels hop)
  -- the other operands are a row of their own
  have hrow := operand_reads hop hsecond hothers hlevels room []
    (i + first.length) d l ls hroom' hl
  have hstop : i + first.length + (Parts.operand op hop second others).length
      = i + (Expression.joined first op hop second others).length := by
    simp [Expression.length, Parts.length, Expression.write, Parts.write]
    omega
  rw [Parts.write, List.cons_append, List.append_assoc] at hrow
  rw [binary_cons, run_mark, Expression.mark_state, Expression.write,
    List.append_assoc, List.cons_append, List.append_assoc,
    run_bind hread, run_bind hrow, hstop]
  simp [Parts.nodes]
  rfl

-- ================================= operators that group to the right

/-- What follows the operand in a round of operators that group to the
right. -/
def behindOperand (g : Inner) (allowed : Bool) (m : Mark)
    (waiting : List Waiting) (operand : Node) :
    Parser (Round (List Waiting) Node) := do
  if ← accept (·.isOperator "?") then
    let value ← expression g
    expectOperator ":" "in conditional expression"
    return .again (addChoice m operand value waiting)
  else if allowed && isOneOf assignmentOperators (← peek) then
    advance
    let waiting := addTarget m operand waiting
    if ← check (·.isPunct "\x7b") then
      let list ← g.parse .initializerList
      return .done (← closeAll list waiting)
    else return .again waiting
  else return .done (← closeAll operand waiting)

/-- A round begins with an operand where an expression was written. -/
theorem rightRound_operand {e : Expression (.binary binaryLevels)}
    (h : e.Reads page policy) (assignment : Bool) {waiting : List Waiting}
    (hwaiting : waiting.length < room) (hroom : e.levels 0 ≤ room)
    (hl : l.ends binaryLevels = true) :
    rightRound (nested policy room) assignment waiting
        (page.state i d (e.write ++ l :: ls))
      = behindOperand (nested policy room) (assignment || !waiting.isEmpty)
        ⟨i, page.locate i⟩ waiting (e.node page.locate i)
        (page.state (i + e.length) d (l :: ls)) := by
  have hread := h (List.suffix_refl _) room i d l ls hroom hl
  unfold rightRound
  rw [if_neg (Nat.not_le_of_lt hwaiting), run_mark, e.mark_state, run_peek,
    e.peek_isKeyword, e.peek_isKeyword, Bool.and_false,
    if_neg Bool.false_ne_true, if_neg Bool.false_ne_true, run_bind hread]
  rfl

/-- The innermost operator is closed first. -/
theorem closeAll_cons {operand n : Node} {w : Waiting} {s : State}
    (h : w.close operand s = .ok n s) (ws : List Waiting) :
    closeAll operand (w :: ws) s = closeAll n ws s := by
  rw [closeAll, run_bind h]

/-- Closing operators reads nothing and cannot fail. -/
theorem closeAll_ok (operand : Node) (waiting : List Waiting) (s : State) :
    ∃ n, closeAll operand waiting s = .ok n s := by
  induction waiting generalizing operand with
  | nil => exact ⟨operand, rfl⟩
  | cons w ws ih =>
    obtain ⟨closed, hclose⟩ : ∃ closed, w.close operand s = .ok closed s := by
      cases w <;> exact ⟨_, rfl⟩
    rw [closeAll_cons hclose]
    exact ih closed

/-- The last operand closes what waits for it. -/
theorem operand_done {e : Expression (.binary binaryLevels)}
    (h : e.Reads page policy) (assignment : Bool) {waiting : List Waiting}
    (hwaiting : waiting.length < room) (hroom : e.levels 0 ≤ room)
    (hl : l.endsRight = true) :
    loop (rightRound (nested policy room) assignment) waiting
        (page.state i d (e.write ++ l :: ls))
      = closeAll (e.node page.locate i) waiting
        (page.state (i + e.length) d (l :: ls)) := by
  obtain ⟨n, hn⟩ := closeAll_ok (e.node page.locate i) waiting
    (page.state (i + e.length) d (l :: ls))
  have hends : l.ends binaryLevels = true := by
    simp_all [Lexeme.endsRight]
  rw [hn]
  refine loop_done ?_
  rw [rightRound_operand h assignment hwaiting hroom hends]
  unfold behindOperand
  simp_all [Lexeme.endsRight, run_map hn]

theorem simple_reads {a c : Bool} {e : Expression (.binary binaryLevels)}
    (h : e.Reads page policy) :
    (.simple e : Expression (.right a c)).Reads page policy := by
  intro room waiting i d l ls hroom hl _ _
  obtain ⟨hwaiting, hroom⟩ := Nat.max_le.1 hroom
  exact operand_done h true hwaiting hroom hl

/-- A target and the operator behind it. -/
theorem target_again {e : Expression (.binary binaryLevels)} {op : String}
    (hop : Word.canonical op ∈ assignmentOperators)
    (h : e.Reads page policy) {waiting : List Waiting}
    (hwaiting : waiting.length < room) (hroom : e.levels 0 ≤ room)
    (hl : l.opens = true) :
    loop (rightRound (nested policy room) true) waiting
        (page.state i d (e.write ++ .operator op :: l :: ls))
      = loop (rightRound (nested policy room) true)
        (addTarget ⟨i, page.locate i⟩ (e.node page.locate i) waiting)
        (page.state (i + e.length + 1) d (l :: ls)) := by
  have hquestion : (Word.canonical op == "?") = false := by
    have : "?" ∉ assignmentOperators := by decide
    simp only [beq_eq_false_iff_ne]
    rintro h
    exact this (h ▸ hop)
  refine loop_again ?_ (by omega) (by simp [Expression.length]; omega)
  rw [rightRound_operand h true hwaiting hroom (ends_of_assignment hop)]
  unfold behindOperand
  cases l <;> simp_all [Lexeme.opens]

/-- A condition and its value, with the colon behind it. -/
theorem choice_again {condition : Expression (.binary binaryLevels)}
    {e : Expression .list} (hcondition : condition.Reads page policy)
    (h : e.Reads page policy) {waiting : List Waiting}
    (hwaiting : waiting.length < room) (hroom : condition.levels 0 ≤ room)
    (hroom' : e.levels 0 ≤ room) :
    loop (rightRound (nested policy room) true) waiting
        (page.state i d (condition.write
          ++ .operator "?" :: (e.write ++ .operator ":" :: ls)))
      = loop (rightRound (nested policy room) true)
        (addChoice ⟨i, page.locate i⟩ (condition.node page.locate i)
          (e.node page.locate (i + condition.length + 1)) waiting)
        (page.state (i + condition.length + 1 + e.length + 1) d ls) := by
  have hread := h room (i + condition.length + 1) d (.operator ":") ls
    hroom' (by decide)
  have hquestion : Word.canonical "?" = "?" := by decide
  have hcolon : Word.canonical ":" = ":" := by decide
  refine loop_again ?_ (by omega) (by simp [Expression.length]; omega)
  rw [rightRound_operand hcondition true hwaiting hroom (by decide)]
  unfold behindOperand
  simp [hquestion, hcolon, run_bind hread, expectOperator]

/-- Behind targets comes an expression. -/
theorem Parts.targets_opens (p : Parts .targets) (hl : l.opens = true)
    (ls : List Lexeme) :
    ∃ l' ls', p.write ++ l :: ls = l' :: ls' ∧ l'.opens = true := by
  cases p with
  | noTarget => exact ⟨l, ls, rfl, hl⟩
  | target e op hop rest =>
    obtain ⟨l', ls', hwrite, hopens⟩ := e.opens
    exact ⟨l', _, by rw [write, hwrite, List.cons_append, List.cons_append],
      hopens⟩

theorem noTarget_reads : Parts.noTarget.Reads page policy := by
  intro room m done waiting i d l ls _ _ _
  rfl

theorem target_reads {e : Expression (.binary binaryLevels)} {op : String}
    (hop : Word.canonical op ∈ assignmentOperators)
    {rest : Parts .targets} (h : e.Reads page policy)
    (hrest : rest.Reads page policy) :
    (Parts.target e op hop rest).Reads page policy := by
  intro room m done waiting i d l ls hroom hwaiting hl
  obtain ⟨hroom, hroom'⟩ := Nat.max_le.1 hroom
  obtain ⟨l', ls', hnext, hopens⟩ := rest.targets_opens hl ls
  have hstop : i + e.length + 1 + rest.length
      = i + (Parts.target e op hop rest).length := by
    simp [Expression.length, Parts.length, Parts.write]
    omega
  rw [Parts.write, List.append_assoc, List.cons_append, hnext,
    target_again hop h (by simpa using hwaiting) hroom hopens, ← hnext]
  unfold addTarget
  rw [hrest room m _ waiting _ d l ls hroom' hwaiting hl, hstop]
  simp [Parts.nodes]

theorem noChoice_reads : Parts.noChoice.Reads page policy := by
  intro room m done waiting i d ls _ _
  rfl

theorem choice_reads {condition : Expression (.binary binaryLevels)}
    {e : Expression .list} {rest : Parts .choices}
    (hcondition : condition.Reads page policy) (h : e.Reads page policy)
    (hrest : rest.Reads page policy) :
    (Parts.choice condition e rest).Reads page policy := by
  intro room m done waiting i d ls hroom hwaiting
  obtain ⟨hroom, hroom'⟩ := Nat.max_le.1 hroom
  obtain ⟨hroom, hroom''⟩ := Nat.max_le.1 hroom
  have hstop : i + condition.length + 1 + e.length + 1 + rest.length
      = i + (Parts.choice condition e rest).length := by
    simp [Expression.length, Parts.length, Parts.write]
    omega
  rw [Parts.write, List.append_assoc, List.cons_append, List.append_assoc,
    List.cons_append,
    choice_again hcondition h (by simpa using hwaiting) hroom hroom'']
  unfold addChoice
  rw [hrest room m _ waiting _ d ls hroom' hwaiting, hstop]
  simp [Parts.nodes]

/-- A target begins a chain where none waits for it. -/
theorem addTarget_begins {m : Mark} {target : Node} {waiting : List Waiting}
    (h : hasTargets waiting = false) :
    addTarget m target waiting = .assigns m [target] :: waiting := by
  cases waiting with
  | nil => rfl
  | cons w ws => cases w <;> first | rfl | cases h

/-- A condition begins a chain where none waits for it. -/
theorem addChoice_begins {m : Mark} {condition value : Node}
    {waiting : List Waiting} (h : hasChoices waiting = false) :
    addChoice m condition value waiting
      = .chooses m [value, condition] :: waiting := by
  cases waiting with
  | nil => rfl
  | cons w ws => cases w <;> first | rfl | cases h

theorem assigns_reads {c : Bool} {first : Expression (.binary binaryLevels)}
    {op : String} (hop : Word.canonical op ∈ assignmentOperators)
    {others : Parts .targets} {last : Expression (.right false true)}
    (hfirst : first.Reads page policy) (hothers : others.Reads page policy)
    (hlast : last.Reads page policy) :
    (.assigns first op hop others last : Expression (.right true c)).Reads
      page policy := by
  intro room waiting i d l ls hroom hl htargets _
  obtain ⟨hroom, hroom'⟩ := Nat.max_le.1 hroom
  obtain ⟨hroom', hroom''⟩ := Nat.max_le.1 hroom'
  have hwaiting := last.lt_levels ⟨_, _, rfl⟩ (waiting.length + 1)
  have hstop : i + first.length + 1 + others.length + last.length
      = i + (.assigns first op hop others last :
        Expression (.right true c)).length := by
    simp [Expression.length, Parts.length, Expression.write]
    omega
  obtain ⟨l', ls', hlast', hopens⟩ := last.opens
  obtain ⟨l'', ls'', hnext, hopens'⟩ := others.targets_opens hopens
    (ls' ++ l :: ls)
  rw [Expression.write, List.append_assoc, List.cons_append,
    List.append_assoc, hlast', List.cons_append, hnext,
    target_again hop hfirst (by omega) hroom hopens',
    addTarget_begins (htargets rfl), ← hnext,
    hothers room _ _ waiting _ d _ _ hroom' (by omega) hopens,
    ← List.cons_append, ← hlast',
    hlast room (.assigns _ _ :: waiting) _ d l ls hroom'' hl
      (absurd · Bool.false_ne_true) fun _ => rfl, hstop]
  refine closeAll_cons ?_ waiting
  unfold Waiting.close
  simp
  rfl

theorem chooses_reads {a : Bool}
    {condition : Expression (.binary binaryLevels)}
    {first : Expression .list} {others : Parts .choices}
    {last : Expression (.right true false)}
    (hcondition : condition.Reads page policy)
    (hfirst : first.Reads page policy) (hothers : others.Reads page policy)
    (hlast : last.Reads page policy) :
    (.chooses condition first others last : Expression (.right a true)).Reads
      page policy := by
  intro room waiting i d l ls hroom hl _ hchoices
  obtain ⟨hboth, hrest⟩ := Nat.max_le.1 hroom
  obtain ⟨hroom, hroom'⟩ := Nat.max_le.1 hboth
  obtain ⟨hrow, hend⟩ := Nat.max_le.1 hrest
  have hwaiting := last.lt_levels ⟨_, _, rfl⟩ (waiting.length + 1)
  have hstop : i + condition.length + 1 + first.length + 1 + others.length
        + last.length
      = i + (.chooses condition first others last :
        Expression (.right a true)).length := by
    simp [Expression.length, Parts.length, Expression.write]
    omega
  rw [Expression.write, List.append_assoc, List.cons_append,
    List.append_assoc, List.cons_append, List.append_assoc,
    choice_again hcondition hfirst (by omega) hroom hroom',
    addChoice_begins (hchoices rfl), hothers room _ _ waiting _ d _ hrow (by omega),
    hlast room (.chooses _ _ :: waiting) _ d l ls hend hl
      (fun _ => rfl) (absurd · Bool.false_ne_true), hstop]
  refine closeAll_cons ?_ waiting
  unfold Waiting.close
  simp
  rfl

-- ================================================================ commas

/-- One level deeper an expression without a comma is read as a whole. -/
theorem assignment_read {e : Expression (.right true true)}
    (h : e.Reads page policy) (hroom : e.levels 0 + 1 ≤ room)
    (hl : l.endsRight = true) :
    (nested policy room).parse .assignment
        (page.state i d (e.write ++ l :: ls))
      = .ok (e.node page.locate i)
        (page.state (i + e.length) d (l :: ls)) := by
  obtain ⟨room, rfl⟩ : ∃ below, room = below + 1 :=
    Nat.exists_eq_add_one_of_ne_zero (by omega)
  exact h room [] i d l ls (Nat.le_of_succ_le_succ hroom) hl
    (fun _ => rfl) fun _ => rfl

/-- An expression among items. -/
theorem item_read {e : Expression (.right true true)}
    (h : e.Reads page policy) {item : Parser Node}
    (hitem : ReadsItems (nested policy room) item)
    (hroom : e.levels 0 + 1 ≤ room) (hl : l.endsRight = true) :
    item (page.state i d (e.write ++ l :: ls))
      = .ok (e.node page.locate i)
        (page.state (i + e.length) d (l :: ls)) := by
  refine hitem _ _ _ (e.peek_isPunct (by decide)) ?_
    (assignment_read h hroom hl)
  have hdots (v : String) := Word.canonical_eq_iff
    (show Word.isSole "..." = true by decide) v
  rw [Page.peek_state, Lexeme.isOperator_token]
  cases l <;> simp_all [Lexeme.endsRight, Lexeme.ends, Lexeme.isPostfix,
    trailingOperators]

theorem lastItem_reads {e : Expression (.right true true)}
    (h : e.Reads page policy) : (Parts.lastItem e).Reads page policy := by
  intro room item done i d l ls hitem hroom hl
  have hends : l.endsRight = true := by
    simp_all [Lexeme.endsList]
  refine loop_done ?_
  unfold itemRound
  rw [Parts.write, run_bind (item_read h hitem hroom hends)]
  simp_all [Lexeme.endsList, Parts.nodes, Parts.length, Parts.write,
    Expression.length]

/-- An item and the comma behind it. -/
theorem item_again {e : Expression (.right true true)}
    (h : e.Reads page policy) {item : Parser Node}
    (hitem : ReadsItems (nested policy room) item)
    (hroom : e.levels 0 + 1 ≤ room) (done : List Node) :
    loop (itemRound item) done
        (page.state i d (e.write ++ .punct "," :: ls))
      = loop (itemRound item) (e.node page.locate i :: done)
        (page.state (i + e.length + 1) d ls) := by
  refine loop_again ?_ (by omega) (by simp [Expression.length]; omega)
  unfold itemRound
  rw [run_bind (item_read h hitem hroom (by decide))]
  simp

theorem item_reads {e : Expression (.right true true)}
    {rest : Parts .items} (h : e.Reads page policy)
    (hrest : rest.Reads page policy) :
    (Parts.item e rest).Reads page policy := by
  intro room item done i d l ls hitem hroom hl
  obtain ⟨hroom, hroom'⟩ := Nat.max_le.1 hroom
  have hstop : i + e.length + 1 + rest.length
      = i + (Parts.item e rest).length := by
    simp [Expression.length, Parts.length, Parts.write]
    omega
  rw [Parts.write, List.append_assoc, List.cons_append,
    item_again h hitem hroom, hrest room item _ _ d l ls hitem hroom' hl,
    hstop]
  simp [Parts.nodes]

theorem single_reads {e : Expression (.right true true)}
    (h : e.Reads page policy) :
    (Expression.single e).Reads page policy := by
  intro room i d l ls hroom hl
  have hitems := lastItem_reads h room _ [] i d l ls
    (fun _ _ _ _ _ h => h) hroom hl
  unfold expression
  rw [run_mark, commaSeparated_eq, Expression.write]
  rw [Parts.write] at hitems
  rw [run_bind hitems]
  rfl

/-- Items are at least one. -/
theorem Parts.nodes_ne_nil (p : Parts .items) (locate : Nat → Location) :
    p.nodes locate i ≠ [] := by
  cases p <;> simp [nodes]

theorem several_reads {first : Expression (.right true true)}
    {others : Parts .items} (hfirst : first.Reads page policy)
    (hothers : others.Reads page policy) :
    (Expression.several first others).Reads page policy := by
  intro room i d l ls hroom hl
  have hitems := item_reads hfirst hothers room _ [] i d l ls
    (fun _ _ _ _ _ h => h) hroom hl
  have hlength : (Parts.item first others).length
      = (Expression.several first others).length := rfl
  obtain ⟨n, ns, hnodes⟩ := List.exists_cons_of_ne_nil
    (others.nodes_ne_nil (i := i + first.length + 1) page.locate)
  unfold expression
  rw [run_mark, Expression.mark_state, commaSeparated_eq, Expression.write]
  rw [Parts.write, hlength] at hitems
  rw [run_bind hitems]
  simp [Parts.nodes, Expression.node, hnodes]

-- ================================================================= calls

/-- Arguments do not begin with a closing parenthesis. -/
theorem Parts.peek_isPunct (p : Parts .items) {w : String}
    (hw : "(" ≠ w) :
    (page.state i d (p.write ++ ls)).peek.isPunct w = false := by
  cases p with
  | lastItem e => exact e.peek_isPunct hw
  | item e rest =>
    rw [write, List.append_assoc]
    exact e.peek_isPunct hw

/-- Arguments are read as items are, one level deeper. -/
theorem listedInitializer_readsItems :
    ReadsItems g (listedInitializer g) := by
  intro s s' n hs hs' h
  unfold listedInitializer
  rw [run_mark, run_bind ((initializer_eq hs).trans h), run_accept, hs']
  rfl

theorem callWith_reads {callee : Expression .suffixed}
    {items : Parts .items} (h : callee.Reads page policy)
    (hitems : items.Reads page policy) :
    (Expression.callWith callee items).Reads page policy := by
  intro room i d ls hroom
  obtain ⟨hroom, hroom'⟩ := Nat.max_le.1 hroom
  have hstop : i + callee.length + 1 + items.length + 1
      = i + (Expression.callWith callee items).length := by
    simp [Expression.length, Parts.length, Expression.write]
    omega
  have hread := hitems room _ [] (i + callee.length + 1) (d + 1)
    (.punct ")") ls listedInitializer_readsItems hroom' (by decide)
  rw [← commaSeparated_eq] at hread
  rw [Expression.write, List.append_assoc, h room i d _ hroom, ← hstop]
  refine postfix_again ?_ (by omega)
    (by simp [Expression.length, Parts.length]; omega)
  unfold postfixRound arguments
  simp [items.peek_isPunct, run_bind hread, expectPunct, hstop]
  rfl

-- ====================================================== all expressions

mutual

/-- An expression is read as it is written. -/
theorem Expression.reads (page : Page) (policy : Policy) :
    {r : Rank} → (e : Expression r) → e.Reads page policy
  | _, .number v => number_reads v
  | _, .parens inner => parens_reads (inner.reads page policy)
  | _, .step e _ hop => step_reads hop (e.reads page policy)
  | _, .call callee => call_reads (callee.reads page policy)
  | _, .callWith callee items =>
    callWith_reads (callee.reads page policy) (items.reads page policy)
  | _, .subscript object index =>
    subscript_reads (object.reads page policy) (index.reads page policy)
  | _, .plain e => plain_reads (e.reads page policy)
  | _, .unary _ hop e => unary_reads hop (e.reads page policy)
  | _, .tight e => tight_reads (e.reads page policy)
  | _, .joined first _ hop second others =>
    joined_reads hop (first.reads page policy) (second.reads page policy)
      (others.reads page policy)
  | _, .simple e => simple_reads (e.reads page policy)
  | _, .assigns first _ hop others last =>
    assigns_reads hop (first.reads page policy) (others.reads page policy)
      (last.reads page policy)
  | _, .chooses condition first others last =>
    chooses_reads (condition.reads page policy) (first.reads page policy)
      (others.reads page policy) (last.reads page policy)
  | _, .single e => single_reads (e.reads page policy)
  | _, .several first others =>
    several_reads (first.reads page policy) (others.reads page policy)

/-- Parts in a row are read as they are written. -/
theorem Parts.reads (page : Page) (policy : Policy) :
    {k : Series} → (p : Parts k) → p.Reads page policy
  | _, .lastItem e => lastItem_reads (e.reads page policy)
  | _, .item e rest =>
    item_reads (e.reads page policy) (rest.reads page policy)
  | _, .noOperand => noOperand_reads
  | _, .operand _ hop e rest =>
    operand_reads hop (e.reads page policy) (rest.reads page policy)
  | _, .noTarget => noTarget_reads
  | _, .target e _ hop rest =>
    target_reads hop (e.reads page policy) (rest.reads page policy)
  | _, .noChoice => noChoice_reads
  | _, .choice condition e rest =>
    choice_reads (condition.reads page policy) (e.reads page policy)
      (rest.reads page policy)

end

end FrontEnd.Written
